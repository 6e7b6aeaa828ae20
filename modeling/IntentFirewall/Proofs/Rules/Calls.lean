import IntentFirewall.Proofs.Rules.History
import IntentFirewall.Proofs.Rules.Preservation
import IntentFirewall.Proofs.Storage.Faults

/-!
# Blocking and unblocking calls

Both kinds of calls on a rule file follow one plan: either there is nothing to do, or the file is
edited, and then one answer can be given.

* `RuleStore.carryOut`: a call on any storage. `RuleStore.Call.edit` is what it does to a document.
* `RuleStore.carryOut_eq`: a call is carried out as `RuleStore.Call.plan` says.
* `RuleStore.Course`: the ways that a plan can go on a storage in memory that cannot be relied on;
  `RuleStore.course_carryOut` says that there are no others.
-/

namespace IntentFirewall.RuleStore

/-- What a successful call answers. -/
inductive Answer
  /-- The trackers are blocked. -/
  | blocked (trackers : List Tracker)
  /-- What became of the trackers that were to be unblocked. -/
  | unblocked (outcome : Unblocked)
  deriving DecidableEq, Repr

/-- What a call does to the document in the rule file of a package. -/
def Call.edit (packageName : String) : Call → Document → Document
  | block trackers, d =>
    match ruleEntries packageName trackers with
    | .ok entries => blocked entries d
    | .error _ => d
  | unblock trackers, d => (trackers.map (·.filterName packageName)).foldl Document.withoutFilters d

/-- What the edits of a document keep, calls keep. -/
theorem Call.edit_of_block {P : Document → Prop}
    (hblock : ∀ d, P d → ∀ tag filter, P (d.block tag filter))
    (hremove : ∀ d, P d → ∀ filter, P (d.withoutFilters filter)) (packageName : String) (c : Call)
    {d : Document} (h : P d) : P (c.edit packageName d) := by
  cases c with
  | block trackers =>
    simp only [Call.edit]
    split
    next entries _ => exact List.foldlRecOn entries _ h fun d hd e _ => hblock d hd e.1 e.2
    next => exact h
  | unblock trackers => exact List.foldlRecOn _ _ h fun d hd filter _ => hremove d hd filter

theorem Call.isReadable_edit (packageName : String) (c : Call) {d : Document}
    (h : d.IsReadable) : (c.edit packageName d).IsReadable :=
  c.edit_of_block (fun _ hd => hd.block) (fun _ hd => hd.withoutFilters) packageName h

theorem Call.isSealed_edit (packageName : String) (c : Call) {d : Document}
    (h : d.IsSealed) : (c.edit packageName d).IsSealed :=
  c.edit_of_block (fun _ hd => hd.block) (fun _ hd => hd.withoutFilters) packageName h

/-- How a call is carried out. -/
inductive Plan
  /-- The result is known before the file is looked at. -/
  | settled (result : Except RuleError Answer)
  /-- The file is edited. A missing one is created, unless only an existing one counts. -/
  | editing (existing : Bool) (answer : Answer)
  deriving DecidableEq

/-- The plan of a call on the rule file of a package. -/
def Call.plan (packageName : String) : Call → Plan
  | block trackers =>
    match ruleEntries packageName trackers with
    | .error e => .settled (.error e)
    | .ok [] => .settled (.ok (.blocked []))
    | .ok (_ :: _) =>
      if isPackageName packageName then
        .editing false (.blocked (trackers.map (·.withState (some false))))
      else .settled (.error (.invalid (.packageName packageName)))
  | unblock trackers =>
    if isPackageName packageName then
      .editing true (.unblocked (.done (trackers.map (·.withState none))))
    else .settled (.error (.invalid (.packageName packageName)))

section

variable {σ : Type} [Storage σ]

/-- Carries out a call. -/
def carryOut (store : RuleStore) (packageName : String) : Call → σ → Except RuleError Answer × σ
  | .block trackers, s =>
    ((store.block packageName trackers s).1.map .blocked, (store.block packageName trackers s).2)
  | .unblock trackers, s =>
    ((store.unblock packageName trackers s).1.map .unblocked,
      (store.unblock packageName trackers s).2)

/-- Carries out a plan, given the path of the file and what the edit does. -/
def Plan.carryOut (path : String) (change : Document → Document) :
    Plan → σ → Except RuleError Answer × σ
  | settled result, s => (result, s)
  | editing false answer, s => transact path (fun d => (answer, change d)) s
  | editing true answer, s =>
    match Storage.isFile path s with
    | (.error e, s) => (.error (.acquire path e), s)
    | (.ok false, s) => (.ok (.unblocked .noRulesFile), s)
    | (.ok true, s) => transact path (fun d => (answer, change d)) s

/-- What an edit tells does not matter for what becomes of the file. -/
theorem transact_map {α β : Type} (path : String) (edit : Edit α) (tell : α → β) (s : σ) :
    transact path (fun d => (tell (edit d).1, (edit d).2)) s =
      ((transact path edit s).1.map tell, (transact path edit s).2) := by
  unfold transact
  cases Storage.openFile path s with
  | mk opened s =>
    cases opened with
    | error e => rfl
    | ok h =>
      dsimp only
      cases Storage.readToEnd h s with
      | mk read s =>
        cases read with
        | error e => rfl
        | ok p =>
          dsimp only
          cases Document.ofBytes p.1 with
          | error e => rfl
          | ok d =>
            dsimp only
            cases replaceBytes path p.2 (edit d).2.toBytes s with
            | mk result s => cases result <;> rfl

variable (store : RuleStore) {packageName : String}

theorem rulesPath_error (h : isPackageName packageName = false) :
    store.rulesPath packageName = .error (.invalid (.packageName packageName)) := by
  simp [rulesPath, h]

/-- Blocking trackers is an edit of the file that answers the same whatever is in it. -/
theorem transact_blockAll {trackers : List Tracker} {entries : List (RuleTag × String)}
    (hentries : ruleEntries packageName trackers = .ok entries) (path : String) (s : σ) :
    transact path (fun d => (Answer.blocked (trackers.map (·.withState (some false))),
        (Call.block trackers).edit packageName d)) s =
      ((transact path (blockAll entries) s).1.map fun flags =>
          .blocked (trackers.zipWith (fun t logged => t.withState (some logged)) flags),
        (transact path (blockAll entries) s).2) := by
  rw [← transact_map]
  congr 1
  funext d
  rw [blockAll_eq, length_ruleEntries hentries, zipWith_withState_replicate]
  simp [Call.edit, hentries]

theorem carryOut_block_eq (packageName : String) (trackers : List Tracker) (s : σ) :
    store.carryOut packageName (.block trackers) s =
      ((Call.block trackers).plan packageName).carryOut
        (Path.join store.rulesDir (packageName ++ ".xml"))
        ((Call.block trackers).edit packageName) s := by
  cases hentries : ruleEntries packageName trackers with
  | error e => simp [carryOut, block, Call.plan, hentries, Plan.carryOut, Except.map]
  | ok entries =>
    cases entries with
    | nil => simp [carryOut, block, Call.plan, hentries, Plan.carryOut, Except.map]
    | cons e rest =>
      cases hname : isPackageName packageName with
      | false =>
        simp [carryOut, block, Call.plan, hentries, Plan.carryOut, Except.map, hname,
          store.rulesPath_error hname]
      | true =>
        have hedit := transact_blockAll hentries
          (Path.join store.rulesDir (packageName ++ ".xml")) s
        simp only [carryOut, block, Call.plan, hentries, Plan.carryOut, hname, if_true,
          store.rulesPath_eq hname, hedit]
        cases transact (Path.join store.rulesDir (packageName ++ ".xml"))
          (blockAll (e :: rest)) s with
        | mk result s => cases result <;> rfl

/-- Unblocking trackers is an edit of the file, whose answer is known before. -/
theorem transact_removeAll (packageName : String) (trackers : List Tracker) (path : String)
    (s : σ) :
    transact path (fun d => (Answer.unblocked (.done (trackers.map (·.withState none))),
        (Call.unblock trackers).edit packageName d)) s =
      ((transact path (removeAll (trackers.map (·.filterName packageName))) s).1.map fun _ =>
          .unblocked (.done (trackers.map (·.withState none))),
        (transact path (removeAll (trackers.map (·.filterName packageName))) s).2) := by
  rw [← transact_map]
  rfl

theorem carryOut_unblock_eq (packageName : String) (trackers : List Tracker) (s : σ) :
    store.carryOut packageName (.unblock trackers) s =
      ((Call.unblock trackers).plan packageName).carryOut
        (Path.join store.rulesDir (packageName ++ ".xml"))
        ((Call.unblock trackers).edit packageName) s := by
  cases hname : isPackageName packageName with
  | false =>
    simp [carryOut, unblock, Call.plan, Plan.carryOut, Except.map, hname,
      store.rulesPath_error hname]
  | true =>
    simp only [carryOut, unblock, Call.plan, Plan.carryOut, hname, if_true,
      store.rulesPath_eq hname, transact_removeAll]
    cases Storage.isFile (Path.join store.rulesDir (packageName ++ ".xml")) s with
    | mk existing s =>
      rcases existing with e | _ | _
      · rfl
      · rfl
      · dsimp only
        cases transact (Path.join store.rulesDir (packageName ++ ".xml"))
          (removeAll (trackers.map (·.filterName packageName))) s with
        | mk result s => cases result <;> rfl

/-- A call is carried out as planned. -/
theorem carryOut_eq (packageName : String) (c : Call) (s : σ) :
    store.carryOut packageName c s = (c.plan packageName).carryOut
      (Path.join store.rulesDir (packageName ++ ".xml")) (c.edit packageName) s := by
  cases c with
  | block trackers => exact store.carryOut_block_eq packageName trackers s
  | unblock trackers => exact store.carryOut_unblock_eq packageName trackers s

end

/-! ## Calls on a storage that cannot be relied on -/

open Unreliable

/-- The ways that a plan can go, with its result and the storage behind it. -/
inductive Course (path : String) (change : Document → Document) (u : Unreliable Memory) :
    Plan → Except RuleError Answer × Unreliable Memory → Prop
  /-- The result was known before. -/
  | settled {result : Except RuleError Answer} : Course path change u (.settled result) (result, u)
  /-- It could not be found out whether there is a file. -/
  | unseen {answer : Answer} {e : StorageError} {u' : Unreliable Memory}
      (hfails : Fails .isFile path u e u') :
    Course path change u (.editing true answer) (.error (.acquire path e), u')
  /-- There is no file. -/
  | missing {answer : Answer} (hdenied : u.storage.denied = false)
      (hmissing : u.storage.contents? (.ofText path) = none) :
    Course path change u (.editing true answer) (.ok (.unblocked .noRulesFile), u)
  /-- The file is edited. -/
  | edited {existing : Bool} {answer : Answer}
      {result : Except RuleError Answer × Unreliable Memory}
      (hexisting : existing = true → (u.storage.contents? (.ofText path)).isSome = true)
      (htransaction : Transaction path (fun d => (answer, change d)) u result) :
    Course path change u (.editing existing answer) result

/-- There are no other ways. -/
theorem course_carryOut (path : String) (change : Document → Document) (p : Plan)
    (u : Unreliable Memory) : Course path change u p (p.carryOut path change u) := by
  match p with
  | .settled result => exact .settled
  | .editing false answer => exact .edited (by simp) (transaction_transact path _ u)
  | .editing true answer =>
    rcases isFile_cases path u with ⟨e, u', hfails, hisFile⟩ | ⟨hdenied, hisFile⟩
    · rw [Plan.carryOut, hisFile]
      exact .unseen hfails
    · cases hfile : u.storage.contents? (.ofText path) with
      | none =>
        rw [hfile] at hisFile
        simp only [Plan.carryOut, hisFile, Option.isSome_none]
        exact .missing hdenied hfile
      | some bytes =>
        rw [hfile] at hisFile
        simp only [Plan.carryOut, hisFile, Option.isSome_some]
        exact .edited (by simp [hfile]) (transaction_transact path _ u)

/-- The ways that a call can go. -/
theorem course_of_carryOut {store : RuleStore} {packageName : String} {c : Call}
    {u : Unreliable Memory} {result : Except RuleError Answer × Unreliable Memory}
    (h : store.carryOut packageName c u = result) :
    Course (Path.join store.rulesDir (packageName ++ ".xml")) (c.edit packageName) u
      (c.plan packageName) result := by
  rw [← h, carryOut_eq]
  exact course_carryOut _ _ _ u

/-- Without a fault, an edit of a rule document succeeds on a storage that allows everything. -/
theorem carryOut_eq_of_plan (store : RuleStore) (packageName : String) (c : Call)
    {u : Unreliable Memory} {existing : Bool} {answer : Answer} {d : Document}
    (hplan : c.plan packageName = .editing existing answer) (hfault : u.fault = none)
    (hwritable : u.storage.isWritable = true)
    (hdocument : store.document packageName u.storage = .ok d)
    (hexisting : existing = true →
      (u.storage.contents? (store.rulesFile packageName)).isSome = true) :
    store.carryOut packageName c u = (.ok answer,
      ⟨u.storage.rewritten (store.rulesFile packageName) (c.edit packageName d).toBytes, u.fault,
        u.readLimit⟩) := by
  generalize hresult : store.carryOut packageName c u = result
  have hcourse := course_of_carryOut hresult
  rw [hplan] at hcourse
  obtain ⟨hdenied, hreadOnly⟩ := Memory.isWritable_iff.1 hwritable
  -- Every other way begins with a fault, or with something that is denied.
  cases hcourse with
  | unseen hfails =>
    obtain ⟨f, hf, -⟩ := hfails.exists_fault hdenied fun _ => hreadOnly
    simp [hfault] at hf
  | missing _ hmissing => simp [rulesFile, hmissing] at hexisting
  | edited _ htransaction =>
    cases htransaction with
    | unopened hfails =>
      obtain ⟨f, hf, -⟩ := hfails.exists_fault hdenied fun _ => hreadOnly
      simp [hfault] at hf
    | unread hf => simp [hfault] at hf
    | malformed hd => cases hdocument.symm.trans hd
    | uncut _ hfails =>
      obtain ⟨f, hf, -⟩ := hfails.exists_fault ((Memory.denied_opened _ _).trans hdenied)
        fun _ => (Memory.readOnly_opened _ _).trans hreadOnly
      simp [hfault] at hf
    | unwritten _ _ hf => simp [hfault] at hf
    | unclosed _ _ hf => simp [hfault] at hf
    | written _ hd =>
      obtain rfl := Except.ok.inj (hdocument.symm.trans hd)
      rfl

theorem exists_of_ruleEntries_error {packageName : String} {trackers : List Tracker} {e : RuleError}
    (h : ruleEntries packageName trackers = .error e) : ∃ refusal, e = .invalid refusal := by
  induction trackers with
  | nil => simp [ruleEntries] at h
  | cons t rest ih =>
    rw [ruleEntries] at h
    split at h
    · exact ⟨_, (Except.error.inj h).symm⟩
    · split at h
      next others hothers => exact ih (Except.error.inj h ▸ hothers)
      · simp at h

/-- A call that fails before the file is looked at makes no sense. -/
theorem Call.exists_of_plan_settled {packageName : String} {c : Call} {e : RuleError}
    (h : c.plan packageName = .settled (.error e)) : ∃ refusal, e = .invalid refusal := by
  cases c with
  | block trackers =>
    rw [Call.plan] at h
    split at h
    next hentries =>
      obtain rfl := Except.error.inj (Plan.settled.inj h)
      exact exists_of_ruleEntries_error hentries
    · simp at h
    · split at h
      · simp at h
      · exact ⟨_, (Except.error.inj (Plan.settled.inj h)).symm⟩
  | unblock trackers =>
    rw [Call.plan] at h
    split at h
    · simp at h
    · exact ⟨_, (Except.error.inj (Plan.settled.inj h)).symm⟩

/-- The only call that is known to succeed before the file is looked at blocks nothing. -/
theorem Call.eq_of_plan_settled {packageName : String} {c : Call} {a : Answer}
    (h : c.plan packageName = .settled (.ok a)) : c = .block [] := by
  cases c with
  | block trackers =>
    rw [Call.plan] at h
    split at h
    next => simp at h
    next hentries =>
      have hlength := length_ruleEntries hentries
      rw [List.eq_nil_of_length_eq_zero hlength.symm]
    next => split at h <;> simp at h
  | unblock trackers =>
    rw [Call.plan] at h
    split at h <;> simp at h

end IntentFirewall.RuleStore
