import IntentFirewall.Proofs.Monitor.Files
import IntentFirewall.Proofs.Storage.Path

/-!
# Files that requests leave alone

A monitor changes the rule file of its package and no other one, and it does so only if it is asked
to block or to unblock trackers and has the privileges.

* `RuleStore.contents?_carryOut_of_ne`, `RuleStore.contents?_carryOut_unblock`: what a call on the
  rule file leaves alone.
* `Monitor.Step.IsIsolated`: what a request leaves alone.
* `Monitor.isIsolated_run`: every request of every run does, and so does the run as a whole.
-/

namespace IntentFirewall

open Unreliable

namespace RuleStore

variable {packageName : String} {c : Call}

/-- Only a file with an accepted name is edited. -/
theorem Call.isPackageName_of_plan {existing : Bool} {a : Answer}
    (h : c.plan packageName = .editing existing a) : isPackageName packageName = true := by
  cases c with
  | block trackers =>
    rw [Call.plan] at h
    split at h
    next => simp at h
    next => simp at h
    next =>
      split at h
      next hname => exact hname
      next => simp at h
  | unblock trackers =>
    rw [Call.plan] at h
    split at h
    next hname => exact hname
    next => simp at h

/-- Unblocking edits existing files only. -/
theorem Call.existing_of_plan_unblock {trackers : List Tracker} {existing : Bool} {a : Answer}
    (h : (Call.unblock trackers).plan packageName = .editing existing a) : existing = true := by
  rw [Call.plan] at h
  split at h
  · exact (Plan.editing.inj h).1.symm
  · simp at h

variable (store : RuleStore) (u : Unreliable Memory) {file : Path}

/-- A call leaves every file alone but the rule file of the package, whatever goes wrong. -/
theorem contents?_carryOut_of_ne
    (hfile : ∀ path, store.rulesPath packageName = .ok path → file ≠ .ofText path) (c : Call) :
    (store.carryOut packageName c u).2.storage.contents? file = u.storage.contents? file := by
  generalize hresult : store.carryOut packageName c u = result
  generalize hplan : c.plan packageName = plan
  have hcourse := course_of_carryOut hresult
  rw [hplan] at hcourse
  cases hcourse with
  | settled => rfl
  | unseen hfails => rw [hfails.storage_eq]
  | missing => rfl
  | edited _ htransaction =>
    have hpath := store.rulesPath_eq (Call.isPackageName_of_plan hplan)
    exact htransaction.contents?_of_ne (hfile _ hpath)

/-- Unblocking creates no files. -/
theorem contents?_carryOut_unblock (packageName : String) (trackers : List Tracker)
    (hmissing : u.storage.contents? file = none) :
    (store.carryOut packageName (.unblock trackers) u).2.storage.contents? file = none := by
  generalize hresult : store.carryOut packageName (.unblock trackers) u = result
  generalize hplan : (Call.unblock trackers).plan packageName = plan
  have hcourse := course_of_carryOut hresult
  rw [hplan] at hcourse
  cases hcourse with
  | settled => exact hmissing
  | unseen hfails => rwa [hfails.storage_eq]
  | missing => exact hmissing
  | edited hexisting htransaction =>
    have hsome := hexisting (Call.existing_of_plan_unblock hplan)
    -- The file that is edited is there, so it is not the missing one.
    have hne : file ≠ .ofText (Path.join store.rulesDir (packageName ++ ".xml")) := by
      rintro rfl
      simp [hmissing] at hsome
    rw [htransaction.contents?_of_ne hne]
    exact hmissing

end RuleStore

namespace Monitor

open RuleStore

/-- Whether a file is another one than the rule file of the package, if that may be touched. -/
def IsForeign (m : Monitor (Unreliable Memory)) (file : Path) : Prop :=
  ∀ store path, m.rules = some store → store.rulesPath m.package.packageName = .ok path →
    file ≠ .ofText path

/-- What a request leaves alone. -/
structure Step.IsIsolated (m : Monitor (Unreliable Memory)) (t : Step (Unreliable Memory)) :
    Prop where
  /-- Every file but the rule file of the package. -/
  foreign : ∀ file, m.IsForeign file →
    t.after.storage.storage.contents? file = t.before.storage.storage.contents? file
  /-- Everything, if no trackers are to be blocked or unblocked. The writes are counted, too. -/
  reading : (∀ c position, t.request ≠ .change c position) →
    t.after.storage.storage = t.before.storage.storage
  /-- Everything, without privileges. -/
  unprivileged : m.rules = none → t.after.storage.storage = t.before.storage.storage
  /-- Missing files are not created if trackers are unblocked. -/
  unblocking : ∀ trackers position, t.request = .change (.unblock trackers) position →
    ∀ file, t.before.storage.storage.contents? file = none →
      t.after.storage.storage.contents? file = none

variable {m : Monitor (Unreliable Memory)} {s : Session (Unreliable Memory)}

/-- A request that leaves everything alone. -/
theorem Step.IsIsolated.of_storage_eq {t : Step (Unreliable Memory)}
    (h : t.after.storage.storage = t.before.storage.storage) : t.IsIsolated m where
  foreign _ _ := by rw [h]
  reading _ := h
  unprivileged _ := h
  unblocking _ _ _ _ hmissing := by rwa [h]

/-- A call that the store of the rule files carries out. -/
theorem isIsolated_change (source : ComponentSource (Unreliable Memory)) (c : Call)
    (position : Option Nat) : (m.stepOf s source (.change c position)).IsIsolated m := by
  rcases (passage_carryOut { m with source } position c s).storage_cases with
    ⟨-, hstorage⟩ | ⟨store, hrules, hstorage⟩
  · exact .of_storage_eq hstorage
  -- What the store leaves alone, the scan behind it leaves alone as well.
  have hcontents (file : Path) :
      (m.stepOf s source (.change c position)).after.storage.storage.contents? file =
        (store.carryOut m.package.packageName c s.storage).2.storage.contents? file :=
    congrArg (Memory.contents? · file) hstorage
  constructor
  · intro file hfile
    rw [hcontents]
    apply store.contents?_carryOut_of_ne
    intro path hpath
    exact hfile store path hrules hpath
  · intro hreading
    exact absurd rfl (hreading c position)
  · intro hnone
    cases hrules.symm.trans hnone
  · intro trackers position' heq file hmissing
    obtain ⟨rfl, -⟩ := Request.change.inj heq
    rw [hcontents]
    exact store.contents?_carryOut_unblock s.storage m.package.packageName trackers hmissing

theorem isIsolated_stepOf (m : Monitor (Unreliable Memory)) (s : Session (Unreliable Memory))
    (source : ComponentSource (Unreliable Memory)) (r : Request) :
    (m.stepOf s source r).IsIsolated m := by
  cases r with
  | scan => exact .of_storage_eq (searched_scan _ s).storage_eq
  | scanFor keyword => exact .of_storage_eq (searched_scan _ _).storage_eq
  | change c position => exact isIsolated_change source c position
  | readRules => exact .of_storage_eq (storage_readRules _ s)
  | clearUpdate => exact .of_storage_eq rfl
  | clearWarning => exact .of_storage_eq rfl

/-- A file that the rest of the world leaves alone as well is the same behind a run. -/
theorem contents?_run {events : List (Event (Unreliable Memory))} {file : Path}
    (hfile : m.IsForeign file)
    (houtside : ∀ change, .outside change ∈ events →
      ∀ u : Unreliable Memory, (change u).storage.contents? file = u.storage.contents? file) :
    (m.run s events).storage.storage.contents? file = s.storage.storage.contents? file := by
  refine run_of_react (P := fun t : Session (Unreliable Memory) =>
    t.storage.storage.contents? file = s.storage.storage.contents? file) ?_ rfl
  intro t event hevent ht
  rw [← ht]
  cases event with
  | request source r => exact (m.isIsolated_stepOf t source r).foreign file hfile
  | outside change => exact houtside change hevent t.storage

/-- Packages have rule files of their own, all in one directory. In every run, whatever goes wrong
and whatever else happens to the storage, every request leaves alone what it should, and a file that
is not the rule file of the package is the same behind the run, unless it is changed from
outside. -/
theorem isIsolated_run (m : Monitor (Unreliable Memory)) (s : Session (Unreliable Memory))
    (events : List (Event (Unreliable Memory))) :
    (∀ store : RuleStore, store.IsFlat) ∧ (∀ t ∈ m.steps s events, t.IsIsolated m) ∧
      ∀ file, m.IsForeign file →
        (∀ change, .outside change ∈ events →
          ∀ u : Unreliable Memory, (change u).storage.contents? file = u.storage.contents? file) →
        (m.run s events).storage.storage.contents? file = s.storage.storage.contents? file :=
  ⟨isFlat, of_mem_steps m.isIsolated_stepOf, fun _ => contents?_run⟩

/-- Between two calls, a fault is put in the way of the second one. The rule file of another package
is still there in the end, and the second call has not created one. -/
theorem isIsolated_run_fault :
    let t : Tracker := ⟨"com.t.Ad", .activity, "T", none, "ads", false, false, true, true⟩
    let source : ComponentSource (Unreliable Memory) := fun package _ =>
      .ok ⟨package.packageName, [⟨.activity, "com.t.Ad", false, true⟩]⟩
    let m : Monitor (Unreliable Memory) := ⟨⟨"com.app", none⟩, ⟨[], []⟩, source, some ⟨"/ifw"⟩⟩
    let other := Path.ofText "/ifw/com.other.xml"
    let s := Session.start (Unreliable.reliable (Memory.empty.put other [0]))
    let harm : Unreliable Memory → Unreliable Memory := fun u =>
      { u with fault := some ⟨.write, .denied⟩ }
    let events : List (Event (Unreliable Memory)) := [.request source (.change (.unblock [t]) none),
      .outside harm, .request source (.change (.block [t]) (some 0))]
    (m.IsForeign other ∧ ∀ change, .outside change ∈ events →
      ∀ u : Unreliable Memory, (change u).storage.contents? other = u.storage.contents? other) ∧
      (m.run s events).storage.storage.contents? other = some [0] ∧
      ∀ step ∈ m.steps s events, step.IsIsolated m := by
  intro t source m other s harm events
  have hforeign : m.IsForeign other := by
    intro store path hrules hpath
    obtain rfl := Option.some.inj hrules
    have hname : isPackageName "com.app" = true := by decide
    obtain rfl := Except.ok.inj ((rulesPath_eq ⟨"/ifw"⟩ hname).symm.trans hpath)
    decide
  have houtside : ∀ change, .outside change ∈ events →
      ∀ u : Unreliable Memory, (change u).storage.contents? other = u.storage.contents? other := by
    intro change hchange u
    obtain rfl : change = harm := by simpa [events] using hchange
    rfl
  obtain ⟨-, hsteps, hrun⟩ := isIsolated_run m s events
  have hother : s.storage.storage.contents? other = some [0] := by decide
  exact ⟨⟨hforeign, houtside⟩, (hrun other hforeign houtside).trans hother, hsteps⟩

end Monitor
end IntentFirewall
