import IntentFirewall.Proofs.Rules.Calls
import IntentFirewall.Proofs.Text.Utf8

/-!
# What a failed call leaves behind

A call that fails leaves all other files alone, and its error tells what has become of the rule
file: as long as the file has not been cut it has its old bytes, and what is written then is the
whole edited document.

* `RuleStore.Transaction.leaves`: an edit of a file that fails.
* `RuleStore.contents?_of_carryOut_error`: a call that fails, whatever goes wrong.
* `RuleStore.bytesAt_of_carryOut_error`: a call that fails before it has cut the file.
-/

namespace IntentFirewall

/-! ## Files that are not edited -/

namespace Memory

variable {file other : Path}

theorem contents?_rewritten_self (m : Memory) (file : Path) (bytes : List UInt8) :
    (m.rewritten file bytes).contents? file = some bytes :=
  m.contents?_put_self file bytes

theorem contents?_rewritten_of_ne (h : other ≠ file) (m : Memory) (bytes : List UInt8) :
    (m.rewritten file bytes).contents? other = m.contents? other :=
  contents?_put_of_ne h m bytes

/-- Opening a file leaves it as it is, or creates an empty one. -/
theorem contents?_opened_cases (m : Memory) (file : Path) :
    (m.opened file).contents? file = m.contents? file ∨
      m.contents? file = none ∧ (m.opened file).contents? file = some [] := by
  rw [contents?_opened, bytesAt]
  cases m.contents? file <;> simp

end Memory

/-- What an error tells about a file in memory. Only a file that could not be closed may hold new
bytes, and then this was the one write. -/
def RuleError.Leaves (file : Path) (m m' : Memory) (unclosed : List UInt8 → Prop) :
    RuleError → Prop
  | .invalid _ | .privileged _ _ | .malformed _ =>
    m'.contents? file = m.contents? file ∧ m'.writes = m.writes
  | .unreadable _ _ =>
    (m'.contents? file = m.contents? file ∨
      m.contents? file = none ∧ m'.contents? file = some []) ∧ m'.writes = m.writes
  | .unwritable _ _ =>
    (m'.contents? file = some (m.bytesAt file) ∨ m'.contents? file = some []) ∧
        m'.writes = m.writes ∨
      (∃ bytes, unclosed bytes ∧ m'.contents? file = some bytes) ∧ m'.writes = m.writes + 1

/-- A file that could not be reached is as it was. -/
theorem RuleError.leaves_acquire (path : String) (cause : StorageError) (file : Path) (m : Memory)
    (unclosed : List UInt8 → Prop) : (acquire path cause).Leaves file m m unclosed := by
  cases cause with
  | permissionDenied => exact ⟨rfl, rfl⟩
  | notFound => exact ⟨.inl rfl, rfl⟩
  | io => exact ⟨.inl rfl, rfl⟩

/-- A file that has been cut is written and closed: no fault is to strike then. -/
def Unreliable.Completes (u : Unreliable Memory) : Prop :=
  ∀ f, u.fault = some f → f.operation ≠ .write ∧ f.operation ≠ .close

namespace RuleStore

open Unreliable

section

variable {α : Type} {path : String} {edit : Edit α} {u u' : Unreliable Memory} {e : RuleError}

theorem Transaction.contents?_of_ne {result : Except RuleError α × Unreliable Memory}
    (h : Transaction path edit u result) {other : Path} (hne : other ≠ .ofText path) :
    result.2.storage.contents? other = u.storage.contents? other := by
  have hopened := Memory.contents?_opened_of_ne hne u.storage
  cases h with
  | unopened hfails => rw [hfails.storage_eq]
  | unread => exact hopened
  | malformed => exact hopened
  | uncut _ hfails => exact (congrArg (Memory.contents? · other) hfails.storage_eq).trans hopened
  | unwritten => exact Memory.contents?_put_of_ne hne _ _
  | unclosed => exact Memory.contents?_rewritten_of_ne hne _ _
  | written => exact Memory.contents?_rewritten_of_ne hne _ _

/-- An edit that fails leaves the bytes of the file, an empty file, or the edited document. -/
theorem Transaction.leaves (h : Transaction path edit u (.error e, u')) :
    e.Leaves (.ofText path) u.storage u'.storage fun bytes =>
      (∃ cause, u.fault = some ⟨.close, cause⟩) ∧
        ∃ d, Document.ofBytes (u.storage.bytesAt (.ofText path)) = .ok d ∧
          bytes = (edit d).2.toBytes ∧ Utf8.decodeString bytes = .ok (edit d).2.toXml := by
  cases h with
  | unopened hfails =>
    rw [hfails.storage_eq]
    exact RuleError.leaves_acquire path _ _ _ _
  | unread => exact ⟨Memory.contents?_opened_cases _ _, Memory.writes_opened _ _⟩
  | malformed hdocument =>
    refine ⟨?_, Memory.writes_opened _ _⟩
    rcases u.storage.contents?_opened_cases (.ofText path) with hsame | ⟨hmissing, -⟩
    · exact hsame
    · -- A missing file counts as a document without rules.
      rw [Memory.bytesAt, hmissing] at hdocument
      cases hdocument
  | uncut _ hfails =>
    refine .inl ⟨.inl ?_, ?_⟩
    · rw [hfails.storage_eq, Memory.contents?_opened]
    · rw [hfails.storage_eq, Memory.writes_opened]
  | unwritten => exact .inl ⟨.inr (Memory.contents?_put_self _ _ _), rfl⟩
  | @unclosed d f _ hdocument hfault hoperation =>
    have hfile := u.storage.contents?_rewritten_self (.ofText path) (edit d).2.toBytes
    have htext : Utf8.decodeString (edit d).2.toBytes = .ok (edit d).2.toXml :=
      Utf8.decodeString_encode (edit d).2.root.print
    refine .inr ⟨⟨(edit d).2.toBytes, ⟨⟨f.cause, ?_⟩, d, hdocument, rfl, htext⟩, hfile⟩, rfl⟩
    rw [hfault, ← hoperation]

/-- An edit that fails before it has cut the file leaves the bytes of all files. A file that has
been created has none. -/
theorem Transaction.bytesAt_of_error (hcompletes : u.Completes)
    (h : Transaction path edit u (.error e, u')) (file : Path) :
    u'.storage.bytesAt file = u.storage.bytesAt file := by
  cases h with
  | unopened hfails => rw [hfails.storage_eq]
  | unread => exact Memory.bytesAt_opened _ _ _
  | malformed => exact Memory.bytesAt_opened _ _ _
  | uncut _ hfails =>
    rw [hfails.storage_eq]
    exact Memory.bytesAt_opened _ _ _
  | unwritten _ _ hfault hoperation => exact absurd hoperation (hcompletes _ hfault).1
  | unclosed _ _ hfault hoperation => exact absurd hoperation (hcompletes _ hfault).2

end

/-- A call that fails leaves all other files alone. The rule file is as it was, and a missing one
is still missing, if the call was refused, access was denied or the file is no rule document. It is
as it was, or empty if it was missing, if it could not be read. If it could not be written it has
its old bytes, or none, or those of the edited document, and these only if it could not be closed.
No error stands for a document that cannot be turned into text, as this cannot fail. -/
theorem contents?_of_carryOut_error {store : RuleStore} {packageName : String} {c : Call}
    {u u' : Unreliable Memory} {e : RuleError}
    (hcall : store.carryOut packageName c u = (.error e, u')) :
    (∀ other, other ≠ store.rulesFile packageName →
      u'.storage.contents? other = u.storage.contents? other) ∧
    e.Leaves (store.rulesFile packageName) u.storage u'.storage fun bytes =>
      (∃ cause, u.fault = some ⟨.close, cause⟩) ∧
        ∃ d, store.document packageName u.storage = .ok d ∧
          bytes = (c.edit packageName d).toBytes ∧
          Utf8.decodeString bytes = .ok (c.edit packageName d).toXml := by
  generalize hplan : c.plan packageName = plan
  have hcourse := course_of_carryOut hcall
  rw [hplan] at hcourse
  -- Without a file there is nothing to unblock, which is no error.
  cases hcourse with
  | settled =>
    obtain ⟨refusal, rfl⟩ := Call.exists_of_plan_settled hplan
    exact ⟨fun _ _ => rfl, rfl, rfl⟩
  | unseen hfails =>
    rw [hfails.storage_eq]
    exact ⟨fun _ _ => rfl, RuleError.leaves_acquire _ _ _ _ _⟩
  | edited _ htransaction =>
    exact ⟨fun other hne => htransaction.contents?_of_ne hne, htransaction.leaves⟩

/-- Closing fails behind the write of a file that has been created, and the other file of the
storage stays. -/
theorem contents?_of_carryOut_error_close :
    let store : RuleStore := ⟨"/ifw"⟩
    let c : Call := .block [⟨"com.t.Ad", .service, "T", none, "ads", false, false, true, true⟩]
    let other := Path.ofText "/ifw/com.other.xml"
    let u : Unreliable Memory := ⟨Memory.empty.put other [0], some ⟨.close, .other "gone"⟩, none⟩
    let u' := (store.carryOut "com.app" c u).2
    let e : RuleError := .unwritable "/ifw/com.app.xml" (.io "/ifw/com.app.xml" (.other "gone"))
    store.carryOut "com.app" c u = (.error e, u') ∧ u'.storage.contents? other = some [0] ∧
      e.Leaves (store.rulesFile "com.app") u.storage u'.storage fun bytes =>
        (∃ cause, u.fault = some ⟨.close, cause⟩) ∧
          ∃ d, store.document "com.app" u.storage = .ok d ∧
            bytes = (c.edit "com.app" d).toBytes ∧
            Utf8.decodeString bytes = .ok (c.edit "com.app" d).toXml := by
  intro store c other u u' e
  have hresult : (store.carryOut "com.app" c u).1 = .error e := by decide +kernel
  have hcall : store.carryOut "com.app" c u = (.error e, u') := by rw [← hresult]
  obtain ⟨hother, hleaves⟩ := contents?_of_carryOut_error hcall
  have hne : other ≠ store.rulesFile "com.app" := by decide
  exact ⟨hcall, hother other hne, hleaves⟩

/-- A call that fails before it has cut the rule file leaves the bytes of all files. -/
theorem bytesAt_of_carryOut_error {store : RuleStore} {packageName : String} {c : Call}
    {u u' : Unreliable Memory} {e : RuleError} (hcompletes : u.Completes)
    (hcall : store.carryOut packageName c u = (.error e, u')) (file : Path) :
    u'.storage.bytesAt file = u.storage.bytesAt file := by
  generalize hplan : c.plan packageName = plan
  have hcourse := course_of_carryOut hcall
  rw [hplan] at hcourse
  cases hcourse with
  | settled => rfl
  | unseen hfails => rw [hfails.storage_eq]
  | edited _ htransaction => exact htransaction.bytesAt_of_error hcompletes file

end RuleStore
end IntentFirewall
