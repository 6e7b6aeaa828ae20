import IntentFirewall.Proofs.Rules.Block
import IntentFirewall.Proofs.Rules.Failure
import IntentFirewall.Proofs.Rules.Idempotence
import IntentFirewall.Proofs.Rules.Reload

/-!
# Calls that are made again

A call that has failed because of a fault is made once more. As long as the file has not been cut,
or the edited document is already in it, this leads to the same rules as if nothing had happened.
Between the cut and the write the old document is gone.

* `RuleStore.Call.edit_edit`: calls are idempotent.
* `RuleStore.carryOut_opened`, `RuleStore.exists_carryOut_put_nil`,
  `RuleStore.exists_carryOut_rewritten`: a call on a file that has been opened, cut or written.
* `RuleStore.carryOut_retry`: what becomes of a call that is made again, for every place where the
  fault can strike.
-/

namespace IntentFirewall

theorem Document.IsSealed.normal {d : Document} (h : d.IsSealed) : d.normal.IsSealed :=
  ⟨h.quotes, h.content.normal⟩

namespace RuleStore

open Unreliable

variable {store : RuleStore} {packageName : String} {c : Call}

/-! ## Calls that are made twice -/

/-- What a call does is done. -/
theorem Call.edit_edit (packageName : String) (c : Call) (d : Document) :
    c.edit packageName (c.edit packageName d) = c.edit packageName d := by
  cases c with
  | block trackers =>
    simp only [Call.edit]
    split
    · exact blocked_blocked _ d
    · rfl
  | unblock trackers => exact Document.foldl_withoutFilters_foldl _ d

/-- What a call makes of the rule sets depends on nothing else. -/
theorem Call.ruleSets_edit_congr (packageName : String) (c : Call) {d d' : Document}
    (h : d.ruleSets = d'.ruleSets) :
    (c.edit packageName d).ruleSets = (c.edit packageName d').ruleSets := by
  cases c with
  | block trackers =>
    simp only [Call.edit]
    split
    next entries _ =>
      refine List.foldl_rel (r := fun d d' : Document => d.ruleSets = d'.ruleSets) h ?_
      intro e _ d d' h
      rw [Document.ruleSets_block, Document.ruleSets_block, h]
    · exact h
  | unblock trackers =>
    refine List.foldl_rel (r := fun d d' : Document => d.ruleSets = d'.ruleSets) h ?_
    intro filter _ d d' h
    rw [Document.ruleSets_withoutFilters, Document.ruleSets_withoutFilters, h]

/-- A call on a file that holds what the call has left has the same rule sets. -/
theorem Call.ruleSets_edit_normal (packageName : String) (c : Call) (d : Document) :
    (c.edit packageName (c.edit packageName d).normal).ruleSets =
      (c.edit packageName d).ruleSets := by
  rw [c.ruleSets_edit_congr packageName (Document.ruleSets_normal _), c.edit_edit]

/-! ## Calls that are made again -/

/-- The rule sets of a sealed document are found in the file that it has been written to. -/
theorem ruleSets_rewritten (m : Memory) {d : Document} (hreadable : d.IsReadable)
    (hsealed : d.IsSealed) :
    (store.document packageName (m.rewritten (store.rulesFile packageName) d.toBytes)).map
      Document.ruleSets = .ok d.ruleSets :=
  ruleSets_rewritten_of_isDelimited m hreadable hsealed.isDelimited

/-- A file that has been cut counts as a document without rules. -/
theorem document_put_nil (store : RuleStore) (packageName : String) (m : Memory) :
    store.document packageName (m.put (store.rulesFile packageName) []) = .ok .empty := by
  rw [document, Memory.bytesAt, Memory.contents?_put_self]
  rfl

variable {m : Memory} {limit : Option Nat} {f : Fault} {u₁ u' : Unreliable Memory} {a : Answer}
  {e : RuleError}

/-- What a fault that has made a call fail leaves behind, by the operation that it has struck. -/
inductive Interrupted (store : RuleStore) (packageName : String) (c : Call) (d : Document)
    (m : Memory) : Operation → Memory → Prop
  /-- The file had not been touched. -/
  | unopened : Interrupted store packageName c d m .openFile m
  /-- The file had been opened, and created if it was missing. -/
  | unread : Interrupted store packageName c d m .read (m.opened (store.rulesFile packageName))
  /-- It had been read. -/
  | uncut : Interrupted store packageName c d m .truncate (m.opened (store.rulesFile packageName))
  /-- It had been cut. -/
  | unwritten : Interrupted store packageName c d m .write (m.put (store.rulesFile packageName) [])
  /-- It had been written. -/
  | unclosed : Interrupted store packageName c d m .close
      (m.rewritten (store.rulesFile packageName) (c.edit packageName d).toBytes)

/-- An edit that fails only because of a fault is interrupted by it. -/
theorem interrupted_of_transaction {d : Document} (hwritable : m.isWritable = true)
    (hdocument : store.document packageName m = .ok d)
    (h : Transaction (Path.join store.rulesDir (packageName ++ ".xml"))
      (fun d => (a, c.edit packageName d)) ⟨m, some f, limit⟩ (.error e, u')) :
    ∃ m', u' = ⟨m', none, limit⟩ ∧ Interrupted store packageName c d m f.operation m' := by
  obtain ⟨hdenied, hreadOnly⟩ := Memory.isWritable_iff.1 hwritable
  cases h with
  | unopened hfails =>
    obtain ⟨f, hfault, hoperation, rfl⟩ := hfails.exists_fault hdenied fun _ => hreadOnly
    obtain rfl := Option.some.inj hfault
    exact ⟨m, rfl, hoperation ▸ .unopened⟩
  | unread hfault hoperation =>
    obtain rfl := Option.some.inj hfault
    exact ⟨_, rfl, hoperation ▸ .unread⟩
  | malformed hmalformed => cases hdocument.symm.trans hmalformed
  | uncut _ hfails =>
    obtain ⟨f, hfault, hoperation, rfl⟩ := hfails.exists_fault
      ((m.denied_opened _).trans hdenied) fun _ => (m.readOnly_opened _).trans hreadOnly
    obtain rfl := Option.some.inj hfault
    exact ⟨_, rfl, hoperation ▸ .uncut⟩
  | unwritten _ _ hfault hoperation =>
    obtain rfl := Option.some.inj hfault
    exact ⟨_, rfl, hoperation ▸ .unwritten⟩
  | unclosed _ hd hfault hoperation =>
    obtain rfl := Option.some.inj hfault
    obtain rfl := Except.ok.inj (hdocument.symm.trans hd)
    exact ⟨_, rfl, hoperation ▸ .unclosed⟩

/-- A call that fails only because of a fault has not found out whether there is a file, or it has
been interrupted on the way to its answer. -/
theorem interrupted_of_carryOut
    (hfree : store.carryOut packageName c ⟨m, none, limit⟩ = (.ok a, u₁))
    (hfailed : store.carryOut packageName c ⟨m, some f, limit⟩ = (.error e, u')) :
    f.operation = .isFile ∧ u' = ⟨m, none, limit⟩ ∨
      ∃ existing d, c.plan packageName = .editing existing a ∧
        (existing = true → (m.contents? (store.rulesFile packageName)).isSome = true) ∧
        m.isWritable = true ∧ store.document packageName m = .ok d ∧
        u₁ = ⟨m.rewritten (store.rulesFile packageName) (c.edit packageName d).toBytes, none,
          limit⟩ ∧
        ∃ m', u' = ⟨m', none, limit⟩ ∧ Interrupted store packageName c d m f.operation m' := by
  -- Both runs follow one plan and look at the same files.
  generalize hplan : c.plan packageName = plan
  have hfree := course_of_carryOut hfree
  have hfailed := course_of_carryOut hfailed
  rw [hplan] at hfree hfailed
  cases hfree with
  | settled => cases hfailed
  | missing hdenied hmissing =>
    cases hfailed with
    | unseen hfails =>
      obtain ⟨f, hfault, hoperation, rfl⟩ := hfails.exists_fault hdenied (absurd rfl)
      obtain rfl := Option.some.inj hfault
      exact .inl ⟨hoperation, rfl⟩
    | edited hexisting => simp [hmissing] at hexisting
  | edited hexisting hwritten =>
    cases hwritten with
    | @written d hwritable hdocument =>
      cases hfailed with
      | unseen hfails =>
        obtain ⟨f, hfault, hoperation, rfl⟩ :=
          hfails.exists_fault (Memory.isWritable_iff.1 hwritable).1 (absurd rfl)
        obtain rfl := Option.some.inj hfault
        exact .inl ⟨hoperation, rfl⟩
      | edited _ htransaction =>
        exact .inr ⟨_, d, rfl, hexisting, hwritable, hdocument, rfl,
          interrupted_of_transaction hwritable hdocument htransaction⟩

section

variable {existing : Bool} {d : Document} (hplan : c.plan packageName = .editing existing a)
  (hwritable : m.isWritable = true)

include hplan hwritable

/-- A file that has only been opened is edited as if nothing had happened, even if it was created
then. -/
theorem carryOut_opened (hdocument : store.document packageName m = .ok d) :
    store.carryOut packageName c
        (Unreliable.mk (m.opened (store.rulesFile packageName)) none limit) =
      (.ok a, ⟨m.rewritten (store.rulesFile packageName) (c.edit packageName d).toBytes, none,
        limit⟩) := by
  have hsame : store.document packageName (m.opened (store.rulesFile packageName)) = .ok d := by
    rw [← hdocument, document, document, Memory.bytesAt_opened]
  rw [store.carryOut_eq_of_plan packageName c hplan rfl
    ((m.isWritable_opened _).trans hwritable) hsame fun _ => by simp [Memory.contents?_opened],
    Memory.rewritten_opened]

/-- Behind the cut, a call finds a document without rules. -/
theorem exists_carryOut_put_nil :
    ∃ u₂, store.carryOut packageName c
        (Unreliable.mk (m.put (store.rulesFile packageName) []) none limit) = (.ok a, u₂) ∧
      u₂.storage = m.rewritten (store.rulesFile packageName)
        (c.edit packageName .empty).toBytes ∧
      (store.document packageName u₂.storage).map Document.ruleSets =
        .ok (c.edit packageName .empty).ruleSets := by
  have hempty := store.document_put_nil packageName m
  refine ⟨_, store.carryOut_eq_of_plan packageName c hplan rfl hwritable hempty fun _ => by simp,
    Memory.rewritten_put _ _ _ _, ?_⟩
  exact ruleSets_rewritten _ (c.isReadable_edit packageName Document.isReadable_empty)
    (c.isSealed_edit packageName Document.isSealed_empty)

/-- Behind the write, a call finds what it has written, and leaves the same rule sets. -/
theorem exists_carryOut_rewritten (hdocument : store.document packageName m = .ok d)
    (hsealed : d.IsSealed) :
    ∃ u₂, store.carryOut packageName c (Unreliable.mk (m.rewritten (store.rulesFile packageName)
        (c.edit packageName d).toBytes) none limit) = (.ok a, u₂) ∧
      (store.document packageName u₂.storage).map Document.ruleSets =
        .ok (c.edit packageName d).ruleSets := by
  have hedited := c.isReadable_edit packageName (Document.isReadable_of_ofBytes hdocument)
  have hsealed := c.isSealed_edit packageName hsealed
  have hwritten : store.document packageName (m.rewritten (store.rulesFile packageName)
      (c.edit packageName d).toBytes) = .ok (c.edit packageName d).normal :=
    store.document_rewritten hedited hsealed
  -- What is read now is the edited document in normal form, and the edit is made once more.
  refine ⟨_, store.carryOut_eq_of_plan packageName c hplan rfl hwritable hwritten
    fun _ => by simp [Memory.contents?_rewritten_self], ?_⟩
  rw [ruleSets_rewritten _ (c.isReadable_edit packageName (Document.isReadable_of_ofBytes hwritten))
    (c.isSealed_edit packageName hsealed.normal), c.ruleSets_edit_normal]

end

/-- A call that would have succeeded, but fails because of a fault, is made again. If the fault has
struck before the file was cut, everything is as if there had been no fault. If the file could not
be closed, the call succeeds with the same answer and the rule sets in the file are the same, if
what was in the file is sealed. If the file had been cut but not written, the call succeeds with the
same answer, too; but what is left in the file is what the call makes of an empty document. -/
theorem carryOut_retry
    (hfree : store.carryOut packageName c ⟨m, none, limit⟩ = (.ok a, u₁))
    (hfailed : store.carryOut packageName c ⟨m, some f, limit⟩ = (.error e, u')) :
    u'.fault = none ∧
      match f.operation with
      | .write =>
        ∃ u₂, store.carryOut packageName c u' = (.ok a, u₂) ∧
          u₂.storage = m.rewritten (store.rulesFile packageName)
            (c.edit packageName .empty).toBytes ∧
          (store.document packageName u₂.storage).map Document.ruleSets =
            .ok (c.edit packageName .empty).ruleSets
      | .close =>
        ∀ d, store.document packageName m = .ok d → d.IsSealed →
          ∃ u₂, store.carryOut packageName c u' = (.ok a, u₂) ∧
            (store.document packageName u₂.storage).map Document.ruleSets =
              (store.document packageName u₁.storage).map Document.ruleSets
      | _ => store.carryOut packageName c u' = (.ok a, u₁) := by
  rcases interrupted_of_carryOut hfree hfailed with ⟨hoperation, rfl⟩ |
    ⟨existing, d, hplan, hexisting, hwritable, hdocument, rfl, m', rfl, hinterrupted⟩
  · rw [hoperation]
    exact ⟨rfl, hfree⟩
  refine ⟨rfl, ?_⟩
  generalize f.operation = operation at hinterrupted
  cases hinterrupted with
  | unopened => exact hfree
  | unread => exact carryOut_opened hplan hwritable hdocument
  | uncut => exact carryOut_opened hplan hwritable hdocument
  | unwritten => exact exists_carryOut_put_nil hplan hwritable
  | unclosed =>
    intro d' hd' hsealed
    obtain rfl := Except.ok.inj (hdocument.symm.trans hd')
    obtain ⟨u₂, hagain, hsets⟩ := exists_carryOut_rewritten hplan hwritable hdocument hsealed
    have hedited := c.isReadable_edit packageName (Document.isReadable_of_ofBytes hdocument)
    exact ⟨u₂, hagain, hsets.trans
      (ruleSets_rewritten m hedited (c.isSealed_edit packageName hsealed)).symm⟩

/-- Closing fails behind the write, and the call is made again. The rule of the other component is
still there. -/
theorem carryOut_retry_close :
    let store : RuleStore := ⟨"/ifw"⟩
    let c : Call := .block [⟨"com.t.Ad", .service, "T", none, "ads", false, false, true, true⟩]
    let m := Memory.empty.put (store.rulesFile "com.app") (Utf8.encode ("<rules><activity " ++
      "block='true'><component-filter name='com.app/com.t.Up'/></activity></rules>").toList)
    let free := store.carryOut "com.app" c (Unreliable.reliable m)
    let failed := store.carryOut "com.app" c (Unreliable.mk m (some ⟨.close, .denied⟩) none)
    let a : Answer :=
      .blocked [⟨"com.t.Ad", .service, "T", none, "ads", true, false, true, true⟩]
    (free = (.ok a, free.2) ∧ failed.1.isOk = false) ∧ failed.2.fault = none ∧
      ∃ u₂, store.carryOut "com.app" c failed.2 = (.ok a, u₂) ∧
        (store.document "com.app" u₂.storage).map Document.ruleSets =
          (store.document "com.app" free.2.storage).map Document.ruleSets := by
  intro store c m free failed a
  have hdocument : store.document "com.app" m = .ok ⟨[], .element "activity" [("block", "true")]
      (.ofFilter "com.app/com.t.Up") .nil⟩ := by
    decide +kernel
  have hfree : free = (.ok a, free.2) := by
    have hrun := store.carryOut_eq_of_plan "com.app" c (u := Unreliable.reliable m) (by rfl) rfl
      rfl hdocument (by simp)
    exact hrun.trans (congrArg _ (congrArg Prod.snd hrun).symm)
  have hresult : failed.1 = .error (.unwritable "/ifw/com.app.xml"
      (.permissionDenied "/ifw/com.app.xml")) := by
    decide +kernel
  have hfailed : failed = (.error (.unwritable "/ifw/com.app.xml"
      (.permissionDenied "/ifw/com.app.xml")), failed.2) := by
    rw [← hresult]
  obtain ⟨hfault, hretry⟩ := carryOut_retry hfree hfailed
  refine ⟨⟨hfree, by rw [hresult]; rfl⟩, hfault, hretry _ hdocument ?_⟩
  exact Document.IsWellNamed.isSealed ⟨by decide, by decide, by decide,
    Xml.Content.isWellNamed_ofFilter _, trivial⟩

/-- Writing fails behind the cut, and the call is made again. It succeeds as if there had been no
fault, but the rule of the other component is gone. -/
theorem carryOut_retry_ne :
    let store : RuleStore := ⟨"/ifw"⟩
    let c : Call := .block [⟨"com.t.Ad", .service, "T", none, "ads", false, false, true, true⟩]
    let m := Memory.empty.put (store.rulesFile "com.app") (Utf8.encode ("<rules><activity " ++
      "block='true'><component-filter name='com.app/com.t.Up'/></activity></rules>").toList)
    let free := store.carryOut "com.app" c (Unreliable.reliable m)
    let failed := store.carryOut "com.app" c (Unreliable.mk m (some ⟨.write, .denied⟩) none)
    let again := store.carryOut "com.app" c failed.2
    failed.1.isOk = false ∧ free.1.isOk = true ∧ again.1 = free.1 ∧
      (store.document "com.app" free.2.storage).map Document.ruleSets =
        .ok [⟨.activity, true, false, .ofList ["com.app/com.t.Up"]⟩,
          ⟨.service, true, false, .ofList ["com.app/com.t.Ad"]⟩] ∧
      (store.document "com.app" again.2.storage).map Document.ruleSets =
        .ok [⟨.service, true, false, .ofList ["com.app/com.t.Ad"]⟩] := by
  intro store c m free failed again
  have hdocument : store.document "com.app" m = .ok ⟨[], .element "activity" [("block", "true")]
      (.ofFilter "com.app/com.t.Up") .nil⟩ := by
    decide +kernel
  have hsealed : Document.IsSealed ⟨[], .element "activity" [("block", "true")]
      (.ofFilter "com.app/com.t.Up") .nil⟩ :=
    Document.IsWellNamed.isSealed ⟨by decide, by decide, by decide,
      Xml.Content.isWellNamed_ofFilter _, trivial⟩
  have hfree := store.carryOut_eq_of_plan "com.app" c (u := Unreliable.reliable m) (by rfl) rfl
    rfl hdocument (by simp)
  have hfailed : failed =
      (.error (.unwritable "/ifw/com.app.xml" (.permissionDenied "/ifw/com.app.xml")),
        ⟨m.put (store.rulesFile "com.app") [], none, none⟩) := by
    decide +kernel
  have hagain := store.carryOut_eq_of_plan "com.app" c (u := failed.2) (by rfl)
    (by rw [hfailed]) (by rw [hfailed]; rfl)
    (by rw [hfailed]; exact store.document_put_nil "com.app" m) (by simp)
  rw [show free = _ from hfree, show again = _ from hagain, hfailed]
  refine ⟨rfl, rfl, rfl, ?_, ?_⟩
  · exact (ruleSets_rewritten m
      (c.isReadable_edit "com.app" (Document.isReadable_of_ofBytes hdocument))
      (c.isSealed_edit "com.app" hsealed)).trans (by decide)
  · exact (ruleSets_rewritten _ (c.isReadable_edit "com.app" Document.isReadable_empty)
      (c.isSealed_edit "com.app" Document.isSealed_empty)).trans (by decide)

end RuleStore
end IntentFirewall
