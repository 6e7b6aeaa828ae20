import IntentFirewall.Proofs.Rules.ReadBack
import IntentFirewall.Proofs.Storage.Memory

/-!
# The rule store in memory

The operations of the rule store on a storage in memory, as functions of the document in the rule
file.

* `RuleStore.map_ruleEntries`: the entries of trackers.
* `RuleStore.document`: the document in the rule file of a package.
* `RuleStore.block_eq`, `RuleStore.unblock_eq`: what becomes of it.
* `RuleStore.exists_of_block`, `RuleStore.exists_of_unblock`: what a successful call tells.
* `RuleStore.applyState_eq`: what it says about trackers.
-/

namespace IntentFirewall.RuleStore

/-! ## The entries of trackers -/

section

variable {packageName : String} {trackers : List Tracker} {entries : List (RuleTag × String)}

theorem filterName_injective (packageName : String) :
    Function.Injective fun name => packageName ++ "/" ++ name := by
  intro a b h
  exact (String.append_right_inj _).1 h

/-- Every tracker has the entry of its kind and its name. -/
theorem map_ruleEntries (h : ruleEntries packageName trackers = .ok entries) :
    entries.map (fun e => (e.2, some e.1)) =
      trackers.map fun t => (t.filterName packageName, RuleTag.forKind? t.kind) := by
  induction trackers generalizing entries with
  | nil =>
    obtain rfl := Except.ok.inj h
    rfl
  | cons t rest ih =>
    rw [ruleEntries] at h
    split at h
    · simp at h
    next tag htag =>
      split at h
      · simp at h
      next others hothers =>
        obtain rfl := Except.ok.inj h
        rw [List.map_cons, List.map_cons, ih hothers, htag]

theorem length_ruleEntries (h : ruleEntries packageName trackers = .ok entries) :
    entries.length = trackers.length := by
  simpa using congrArg List.length (map_ruleEntries h)

end

/-! ## The operations in memory -/

variable (store : RuleStore) {packageName : String} {trackers : List Tracker} {m m' : Memory}

/-- The place of the rule file of a package. -/
def rulesFile (store : RuleStore) (packageName : String) : Path :=
  .ofText (Path.join store.rulesDir (packageName ++ ".xml"))

/-- The document in the rule file of a package; a missing file is an empty document. -/
def document (store : RuleStore) (packageName : String) (m : Memory) :
    Except DocumentError Document :=
  Document.ofBytes (m.bytesAt (store.rulesFile packageName))

theorem rulesPath_eq (h : isPackageName packageName = true) :
    store.rulesPath packageName = .ok (Path.join store.rulesDir (packageName ++ ".xml")) := by
  rw [rulesPath, if_pos h]

theorem isPackageName_of_rulesPath {store : RuleStore} {path : String}
    (h : store.rulesPath packageName = .ok path) : isPackageName packageName = true := by
  rw [rulesPath] at h
  split at h
  next hname => exact hname
  next => simp at h

theorem isFile_eq (packageName : String) (hdenied : m.denied = false) :
    Storage.isFile (Path.join store.rulesDir (packageName ++ ".xml")) m =
      (.ok (m.contents? (store.rulesFile packageName)).isSome, m) := by
  change Memory.isFile _ m = _
  rw [Memory.isFile, hdenied]
  rfl

/-- Trackers are blocked only under the name of a package, in a file that can be written. -/
theorem allowed_of_block {store : RuleStore} (hne : trackers ≠ []) {out : List Tracker}
    (h : store.block packageName trackers m = (.ok out, m')) :
    isPackageName packageName = true ∧ m.isWritable = true := by
  rw [block] at h
  split at h
  · simp at h
  next hnil => exact absurd (List.length_eq_zero_iff.1 (length_ruleEntries hnil).symm) hne
  next entries _ _ =>
    split at h
    · simp at h
    next path hpath =>
      cases htransact : transact path (blockAll entries) m with
      | mk answer s =>
        cases answer with
        | error e => simp [htransact] at h
        | ok flags => exact ⟨isPackageName_of_rulesPath hpath, isWritable_of_transact htransact⟩

theorem zipWith_withState_replicate (trackers : List Tracker) (logged : Bool) :
    trackers.zipWith (fun t logged => t.withState (some logged))
        (List.replicate trackers.length logged) =
      trackers.map (·.withState (some logged)) := by
  induction trackers with
  | nil => rfl
  | cons t rest ih =>
    rw [List.length_cons, List.replicate_succ, List.zipWith_cons_cons, ih, List.map_cons]

/-- Blocking trackers reports each of them as blocked without logging, and leaves a file with the
document in which their entries have been blocked one after the other. -/
theorem block_eq (hname : isPackageName packageName = true) (hwritable : m.isWritable = true)
    {entries : List (RuleTag × String)} (hentries : ruleEntries packageName trackers = .ok entries)
    (hne : trackers ≠ []) :
    store.block packageName trackers m =
      match store.document packageName m with
      | .error e => (.error (.malformed e), m.opened (store.rulesFile packageName))
      | .ok d => (.ok (trackers.map (·.withState (some false))),
          m.rewritten (store.rulesFile packageName) (blocked entries d).toBytes) := by
  have hnil : entries ≠ [] := by
    rintro rfl
    exact hne (List.length_eq_zero_iff.1 (length_ruleEntries hentries).symm)
  rw [block, hentries]
  split
  next heq => simp at heq
  next heq => exact absurd (Except.ok.inj heq) hnil
  next entries' _ heq =>
    obtain rfl := Except.ok.inj heq
    simp only [store.rulesPath_eq hname, transact_eq hwritable, blockAll_eq]
    rw [document, rulesFile]
    cases Document.ofBytes (m.bytesAt _) with
    | error e => rfl
    | ok d => simp only [length_ruleEntries hentries, zipWith_withState_replicate]

/-- Blocking trackers succeeds on a file that holds a rule document. -/
theorem block_eq_ok (hname : isPackageName packageName = true) (hwritable : m.isWritable = true)
    {entries : List (RuleTag × String)} (hentries : ruleEntries packageName trackers = .ok entries)
    (hne : trackers ≠ []) {d : Document} (hdocument : store.document packageName m = .ok d) :
    store.block packageName trackers m = (.ok (trackers.map (·.withState (some false))),
      (store.block packageName trackers m).2) := by
  rw [store.block_eq hname hwritable hentries hne, hdocument]

theorem block_nil (packageName : String) (m : Memory) :
    store.block packageName [] m = (.ok [], m) := rfl

/-- Blocking trackers succeeds only on a file that holds a rule document. -/
theorem exists_of_block {store : RuleStore} (hname : isPackageName packageName = true)
    (hne : trackers ≠ []) {out : List Tracker}
    (h : store.block packageName trackers m = (.ok out, m')) :
    ∃ entries d, ruleEntries packageName trackers = .ok entries ∧
      store.document packageName m = .ok d ∧ out = trackers.map (·.withState (some false)) ∧
      m' = m.rewritten (store.rulesFile packageName) (blocked entries d).toBytes := by
  have hwritable := (allowed_of_block hne h).2
  cases hentries : ruleEntries packageName trackers with
  | error e => simp [block, hentries] at h
  | ok entries =>
    rw [store.block_eq hname hwritable hentries hne] at h
    cases hdocument : store.document packageName m with
    | error e => simp [hdocument] at h
    | ok d =>
      rw [hdocument] at h
      obtain ⟨hout, hm⟩ := Prod.mk.inj h
      exact ⟨entries, d, rfl, rfl, (Except.ok.inj hout).symm, hm.symm⟩

/-- Unblocking trackers leaves a file with the document without their filters. Without a file
there is nothing to do. -/
theorem unblock_eq (hname : isPackageName packageName = true) (hwritable : m.isWritable = true)
    (trackers : List Tracker) :
    store.unblock packageName trackers m =
      if (m.contents? (store.rulesFile packageName)).isSome then
        match store.document packageName m with
        | .error e => (.error (.malformed e), m)
        | .ok d => (.ok (.done (trackers.map (·.withState none))),
            m.rewritten (store.rulesFile packageName)
              ((trackers.map (·.filterName packageName)).foldl Document.withoutFilters d).toBytes)
      else (.ok .noRulesFile, m) := by
  have hisFile := store.isFile_eq packageName (Memory.isWritable_iff.1 hwritable).1
  cases hfile : (m.contents? (store.rulesFile packageName)).isSome with
  | false =>
    rw [hfile] at hisFile
    simp only [unblock, store.rulesPath_eq hname, hisFile]
    rfl
  | true =>
    rw [hfile] at hisFile
    have hopened : m.opened (.ofText (Path.join store.rulesDir (packageName ++ ".xml"))) = m :=
      if_pos hfile
    simp only [unblock, store.rulesPath_eq hname, hisFile, transact_eq hwritable, hopened]
    rw [document, rulesFile, if_pos trivial]
    cases Document.ofBytes (m.bytesAt _) with
    | error e => rfl
    | ok d => rfl

/-- Trackers are unblocked only under the name of a package, in a file that can be written. -/
theorem allowed_of_unblock {store : RuleStore} {out : List Tracker}
    (h : store.unblock packageName trackers m = (.ok (.done out), m')) :
    isPackageName packageName = true ∧ m.isWritable = true := by
  rw [unblock] at h
  split at h
  · simp at h
  next path hpath =>
    have hisFile : Storage.isFile path m = Memory.isFile path m := rfl
    rw [hisFile, Memory.isFile] at h
    cases hdenied : m.denied with
    | true => simp [hdenied] at h
    | false =>
      cases hfile : (m.contents? (.ofText path)).isSome with
      | false => simp [hdenied, hfile] at h
      | true =>
        simp only [hdenied, hfile, Bool.false_eq_true, if_false] at h
        cases htransact : transact path
          (removeAll (trackers.map (·.filterName packageName))) m with
        | mk answer s =>
          cases answer with
          | error e => simp [htransact] at h
          | ok _ => exact ⟨isPackageName_of_rulesPath hpath, isWritable_of_transact htransact⟩

/-- Unblocking trackers succeeds only on a file that holds a rule document. -/
theorem exists_of_unblock {store : RuleStore} {out : List Tracker}
    (h : store.unblock packageName trackers m = (.ok (.done out), m')) :
    ∃ d, store.document packageName m = .ok d ∧ out = trackers.map (·.withState none) ∧
      m' = m.rewritten (store.rulesFile packageName)
        ((trackers.map (·.filterName packageName)).foldl Document.withoutFilters d).toBytes := by
  obtain ⟨hname, hwritable⟩ := allowed_of_unblock h
  rw [store.unblock_eq hname hwritable] at h
  split at h
  · cases hdocument : store.document packageName m with
    | error e => simp [hdocument] at h
    | ok d =>
      rw [hdocument] at h
      obtain ⟨hout, hm⟩ := Prod.mk.inj h
      exact ⟨d, rfl, (Unblocked.done.inj (Except.ok.inj hout)).symm, hm.symm⟩
  · simp at h

theorem stateIn_empty (packageName : String) (t : Tracker) :
    stateIn packageName (some .empty) t = none := by
  cases h : RuleTag.forKind? t.kind with
  | none => simp only [stateIn, h]
  | some tag =>
    simp only [stateIn, h]
    rfl

/-- Every tracker gets the state that the document in the rule file gives it. -/
theorem applyState_eq (hname : isPackageName packageName = true) (hdenied : m.denied = false) :
    store.applyState packageName trackers m =
      match store.document packageName m with
      | .error e => (.error (.malformed e), m)
      | .ok d => (.ok (trackers.map fun t => t.withState (stateIn packageName (some d) t)), m) := by
  have hisFile := store.isFile_eq packageName hdenied
  rw [document, Memory.bytesAt]
  cases hfile : m.contents? (store.rulesFile packageName) with
  | none =>
    rw [hfile] at hisFile
    -- Without a file nothing has a state, and nothing has one in an empty document either.
    have hempty : Document.ofBytes ((none : Option (List UInt8)).getD []) = .ok .empty := rfl
    simp only [applyState, readDocument, store.rulesPath_eq hname, hisFile, Option.isSome_none,
      hempty, stateIn_empty]
    rfl
  | some bytes =>
    rw [hfile] at hisFile
    have hread : Storage.readAll (Path.join store.rulesDir (packageName ++ ".xml")) m =
        (.ok bytes, m) := by
      change Memory.readAll _ m = _
      rw [rulesFile] at hfile
      simp [Memory.readAll, hdenied, hfile]
    simp only [applyState, readDocument, store.rulesPath_eq hname, hisFile, Option.isSome_some,
      hread, Option.getD_some]
    cases Document.ofBytes bytes with
    | error e => rfl
    | ok d => rfl

/-- The document in a file that has been written is the one that its new bytes describe. -/
theorem document_rewritten_eq (packageName : String) (m : Memory) (bytes : List UInt8) :
    store.document packageName (m.rewritten (store.rulesFile packageName) bytes) =
      Document.ofBytes bytes := by
  have hbytes : (m.rewritten (store.rulesFile packageName) bytes).bytesAt
      (store.rulesFile packageName) = bytes := by
    rw [Memory.bytesAt]
    exact congrArg (Option.getD · []) (m.contents?_put_self _ _)
  rw [document, hbytes]

/-- The edited document is read back, in normal form. -/
theorem document_rewritten {d : Document} (hreadable : d.IsReadable) (hsealed : d.IsSealed) :
    store.document packageName (m.rewritten (store.rulesFile packageName) d.toBytes) =
      .ok d.normal := by
  rw [document_rewritten_eq, Document.ofBytes_toBytes hreadable hsealed]

end IntentFirewall.RuleStore
