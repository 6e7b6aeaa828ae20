import IntentFirewall.Proofs.Monitor.Files
import IntentFirewall.Proofs.Rules.Reload

/-!
# What failed requests leave behind

As long as every file that can be cut can also be written and closed, a request to block or to
unblock trackers that fails because of the rule file has changed nothing. A request that fails
because the components of the package cannot be found is another matter: they are looked for when
the rule file has been changed already.

* `Monitor.leaves_of_carryOut_error`: requests that fail, by their errors.
* `Monitor.leaves_of_carryOut_error_ne`: trackers are blocked, and an error is all that is told.
-/

namespace IntentFirewall

open RuleStore

/-- What the error of a call tells about files. If components could not be found, then what was to
be done to the rule file has been done. -/
def MonitorError.Leaves (m : Monitor (Unreliable Memory)) (c : Call) (u u' : Unreliable Memory) :
    MonitorError → Prop
  | .rules _ | .unprivileged => ∀ file, u'.storage.bytesAt file = u.storage.bytesAt file
  | .components cause =>
    m.source m.package u' = .error cause ∧
      ∃ store, m.rules = some store ∧
        (c = .block [] ∧ u' = u ∨
          ∃ d, store.document m.package.packageName u.storage = .ok d ∧
            u'.storage = u.storage.rewritten (store.rulesFile m.package.packageName)
              (c.edit m.package.packageName d).toBytes ∧
            ((c.edit m.package.packageName d).IsDelimited →
              (store.document m.package.packageName u'.storage).map Document.ruleSets =
                .ok (c.edit m.package.packageName d).ruleSets))

namespace Monitor

variable {m : Monitor (Unreliable Memory)} {position : Option Nat} {c : Call}
  {s s' : Session (Unreliable Memory)} {e : MonitorError}

/-- A call that fails because of the rule file, or because this must not be touched, has changed
nothing. One that fails because components cannot be found has been carried out on the rule file:
this holds the edited document, with its rule sets, if its tags end where they should. -/
theorem leaves_of_carryOut_error (hcompletes : s.storage.Completes)
    (hcall : m.carryOut position c s = (.error e, s')) : e.Leaves m c s.storage s'.storage := by
  have hpassage := m.passage_carryOut position c s
  rw [hcall] at hpassage
  generalize hresult : (Except.error e, s') = result at hpassage
  cases hpassage with
  | unprivileged =>
    cases hresult
    intro file
    rfl
  | refused _ hrefused =>
    cases hresult
    intro file
    exact bytesAt_of_carryOut_error hcompletes hrefused file
  | missing => cases hresult
  | updated => cases hresult
  | @rescanned store a trackers u result hrules hchange hchanged hscan =>
    -- The scan fails when the call has been carried out.
    cases hscan with
    | found => cases hresult
    | unresolved hsource =>
      cases hresult
      refine ⟨hsource, store, hrules, ?_⟩
      rcases exists_of_carryOut_ok hchange with ⟨hnothing, hsame⟩ | ⟨d, hdocument, hstorage⟩
      · rcases hnothing with hnothing | rfl
        · exact .inl ⟨hnothing, hsame⟩
        · cases hchanged
      · refine .inr ⟨d, hdocument, hstorage, ?_⟩
        intro hdelimited
        have hreadable :=
          c.isReadable_edit m.package.packageName (Document.isReadable_of_ofBytes hdocument)
        change (store.document m.package.packageName u.storage).map Document.ruleSets = _
        rw [hstorage]
        exact ruleSets_rewritten_of_isDelimited s.storage.storage hreadable hdelimited

/-- A component is unblocked when the package is gone. Its filter is taken out of the file, which is
read in pieces of five bytes. -/
theorem leaves_of_carryOut_error_gone :
    let store : RuleStore := ⟨"/ifw"⟩
    let gone : ComponentSource (Unreliable Memory) := fun package _ =>
      .error (.unresolved package.packageName "gone")
    let m : Monitor (Unreliable Memory) := ⟨⟨"com.app", none⟩, ⟨[], []⟩, gone, some store⟩
    let c : Call := .unblock [⟨"com.t.Ad", .service, "T", none, "ads", true, false, true, true⟩]
    let s := Session.start (Unreliable.mk (Memory.empty.put (store.rulesFile "com.app")
      (Utf8.encode ("<rules><service block='true'><component-filter name='com.app/com.t.Ad'/>" ++
        "</service></rules>").toList)) (some ⟨.readAll, .denied⟩) (some 5))
    let s' := (m.carryOut none c s).2
    let e : MonitorError := .components (.unresolved "com.app" "gone")
    (s.storage.Completes ∧ m.carryOut none c s = (.error e, s')) ∧
      e.Leaves m c s.storage s'.storage := by
  intro store gone m c s s' e
  have hcompletes : s.storage.Completes := by
    intro f hfault
    cases hfault
    decide
  have hresult : (m.carryOut none c s).1 = .error e := by decide +kernel
  have hcall : m.carryOut none c s = (.error e, s') := by rw [← hresult]
  exact ⟨⟨hcompletes, hcall⟩, leaves_of_carryOut_error hcompletes hcall⟩

/-- A component is blocked, and all that is told is that the package is gone. If its place in the
list is given, the same call succeeds. -/
theorem leaves_of_carryOut_error_ne :
    let store : RuleStore := ⟨"/ifw"⟩
    let gone : ComponentSource (Unreliable Memory) := fun package _ =>
      .error (.unresolved package.packageName "gone")
    let m : Monitor (Unreliable Memory) := ⟨⟨"com.app", none⟩, ⟨[], []⟩, gone, some store⟩
    let t : Tracker := ⟨"com.t.Ad", .activity, "T", none, "ads", false, false, true, true⟩
    let s := Session.start (Unreliable.reliable Memory.empty)
    let failed := m.carryOut none (.block [t]) s
    s.storage.fault = none ∧ failed.1.isOk = false ∧
      (store.document "com.app" s.storage.storage).map Document.ruleSets = .ok [] ∧
      (store.document "com.app" failed.2.storage.storage).map Document.ruleSets =
        .ok [⟨.activity, true, false, ["com.app/com.t.Ad"]⟩] ∧
      (m.carryOut (some 0) (.block [t]) s).1 =
        .ok (.updated ⟨t.withState (some false), 0⟩) := by
  intro store gone m t s failed
  decide +kernel

end Monitor
end IntentFirewall
