import IntentFirewall.Proofs.Storage.Memory
import IntentFirewall.Storage.Unreliable

/-!
# Files in memory that cannot be relied on

How far an edit of a rule file comes on a storage in memory, if an operation may fail and reads may
be short.

* `Unreliable.Fails`: why an operation fails. A fault strikes, or the storage denies it.
* `Unreliable.readToEnd_eq`: short reads yield the same bytes.
* `RuleStore.Transaction`: the ways that an edit can go; `RuleStore.transaction_transact` says that
  there are no others.
-/

namespace IntentFirewall
namespace Unreliable

section

variable {σ α : Type} {operation : Operation} {path : String}
  {act : σ → Except StorageError α × σ} {u : Unreliable σ} {f : Fault}

theorem attempt_of_fault (hfault : u.fault = some f) (hoperation : f.operation = operation) :
    attempt operation path act u = (.error (.ofFile path f.cause), { u with fault := none }) := by
  have hfilter : u.fault.filter (fun f => f.operation == operation) = some f := by
    rw [hfault, Option.filter_some, if_pos (beq_iff_eq.2 hoperation)]
  rw [attempt, hfilter]

theorem attempt_of_no_fault (h : ∀ f, u.fault = some f → f.operation ≠ operation) :
    attempt operation path act u =
      ((act u.storage).1, { u with storage := (act u.storage).2 }) := by
  have hfilter : u.fault.filter (fun f => f.operation == operation) = none := by
    rw [Option.filter_eq_none_iff]
    intro f hfault hoperation
    exact h f hfault (beq_iff_eq.1 hoperation)
  rw [attempt, hfilter]

/-- An operation fails as the fault says, or it is carried out. -/
theorem attempt_cases (operation : Operation) (path : String) (act : σ → Except StorageError α × σ)
    (u : Unreliable σ) :
    (∃ f, u.fault = some f ∧ f.operation = operation ∧ attempt operation path act u =
        (.error (.ofFile path f.cause), { u with fault := none })) ∨
      attempt operation path act u =
        ((act u.storage).1, { u with storage := (act u.storage).2 }) := by
  by_cases h : ∃ f, u.fault = some f ∧ f.operation = operation
  · obtain ⟨f, hfault, hoperation⟩ := h
    exact .inl ⟨f, hfault, hoperation, attempt_of_fault hfault hoperation⟩
  · refine .inr (attempt_of_no_fault fun f hfault hoperation => h ⟨f, hfault, hoperation⟩)

/-- What an operation leaves of the storage as it is stays so if it fails, too. -/
theorem view_attempt {β : Type} (view : σ → β) (hact : view (act u.storage).2 = view u.storage) :
    view (attempt operation path act u).2.storage = view u.storage := by
  rcases attempt_cases operation path act u with ⟨f, -, -, hattempt⟩ | hattempt
  · rw [hattempt]
  · rw [hattempt]
    exact hact

end

/-- An operation on a path fails: a fault strikes, or the storage denies it. The files stay as they
are. -/
inductive Fails (operation : Operation) (path : String) (u : Unreliable Memory) :
    StorageError → Unreliable Memory → Prop
  /-- A fault strikes. -/
  | fault {f : Fault} (hfault : u.fault = some f) (hoperation : f.operation = operation) :
    Fails operation path u (.ofFile path f.cause) { u with fault := none }
  /-- The storage denies every access. -/
  | denied (hdenied : u.storage.denied = true) : Fails operation path u (.permissionDenied path) u
  /-- The storage denies every change. -/
  | readOnly (hreadOnly : u.storage.readOnly = true) (hchange : operation ≠ .isFile) :
    Fails operation path u (.permissionDenied path) u

variable {u : Unreliable Memory} {path : String}

theorem Fails.storage_eq {operation : Operation} {e : StorageError} {u' : Unreliable Memory}
    (h : Fails operation path u e u') : u'.storage = u.storage := by
  cases h <;> rfl

/-- What the storage allows fails only if a fault strikes. -/
theorem Fails.exists_fault {operation : Operation} {e : StorageError} {u' : Unreliable Memory}
    (h : Fails operation path u e u') (hdenied : u.storage.denied = false)
    (hreadOnly : operation ≠ .isFile → u.storage.readOnly = false) :
    ∃ f, u.fault = some f ∧ f.operation = operation ∧ u' = { u with fault := none } := by
  cases h with
  | fault hfault hoperation => exact ⟨_, hfault, hoperation, rfl⟩
  | denied hall => simp [hdenied] at hall
  | readOnly hchanges hchange => simp [hreadOnly hchange] at hchanges

/-- Looking whether there is a file fails, or it is carried out. -/
theorem isFile_cases (path : String) (u : Unreliable Memory) :
    (∃ e u', Fails .isFile path u e u' ∧ Storage.isFile path u = (.error e, u')) ∨
      (u.storage.denied = false ∧
        Storage.isFile path u = (.ok (u.storage.contents? (.ofText path)).isSome, u)) := by
  rcases attempt_cases .isFile path (Storage.isFile path) u with
    ⟨f, hfault, hoperation, hattempt⟩ | hattempt
  · exact .inl ⟨_, _, .fault hfault hoperation, hattempt⟩
  · have hisFile : Storage.isFile path u.storage = Memory.isFile path u.storage := rfl
    rw [hisFile, Memory.isFile] at hattempt
    cases hdenied : u.storage.denied with
    | true =>
      rw [hdenied] at hattempt
      exact .inl ⟨_, u, .denied hdenied, hattempt⟩
    | false =>
      rw [hdenied] at hattempt
      exact .inr ⟨rfl, hattempt⟩

theorem storage_isFile (path : String) (u : Unreliable Memory) :
    (Storage.isFile path u).2.storage = u.storage :=
  view_attempt id (Memory.isFile_snd path u.storage)

/-- Looking whether there is a file uses up no fault of another operation. -/
theorem isFile_snd (hfault : ∀ f, u.fault = some f → f.operation ≠ .isFile) (path : String) :
    (Storage.isFile path u).2 = u := by
  have hattempt : Storage.isFile path u = ((Storage.isFile path u.storage).1,
      { u with storage := (Storage.isFile path u.storage).2 }) :=
    attempt_of_no_fault hfault
  rw [hattempt, Memory.isFile_snd]

theorem storage_readAll (path : String) (u : Unreliable Memory) :
    (Storage.readAll path u).2.storage = u.storage :=
  view_attempt id (Memory.readAll_snd path u.storage)

/-- Opening a file fails, or it is created if it is missing. -/
theorem openFile_cases (path : String) (u : Unreliable Memory) :
    (∃ e u', Fails .openFile path u e u' ∧ Storage.openFile path u = (.error e, u')) ∨
      (u.storage.denied = false ∧ Storage.openFile path u = (.ok ⟨path, .ofText path, 0⟩,
        { u with storage := u.storage.opened (.ofText path) })) := by
  rcases attempt_cases .openFile path (Storage.openFile path) u with
    ⟨f, hfault, hoperation, hattempt⟩ | hattempt
  · exact .inl ⟨_, _, .fault hfault hoperation, hattempt⟩
  · have hopen : Storage.openFile path u.storage = Memory.openFile path u.storage := rfl
    rw [hopen, Memory.openFile] at hattempt
    cases hdenied : u.storage.denied with
    | true =>
      rw [hdenied] at hattempt
      exact .inl ⟨_, u, .denied hdenied, hattempt⟩
    | false =>
      rw [hdenied] at hattempt
      cases hfile : u.storage.contents? (.ofText path) with
      | some bytes =>
        rw [hfile] at hattempt
        refine .inr ⟨rfl, hattempt.trans ?_⟩
        simp [Memory.opened, hfile]
      | none =>
        -- A missing file would have to be created, which is a change.
        rw [hfile] at hattempt
        cases hreadOnly : u.storage.readOnly with
        | true =>
          rw [hreadOnly] at hattempt
          exact .inl ⟨_, u, .readOnly hreadOnly (by decide), hattempt⟩
        | false =>
          rw [hreadOnly] at hattempt
          refine .inr ⟨rfl, hattempt.trans ?_⟩
          simp [Memory.opened, hfile]

/-- A file that is opened can be read from its start. -/
theorem eq_of_openFile {h : Handle} {u' : Unreliable Memory}
    (hopen : Storage.openFile path u = (.ok h, u')) :
    u.storage.denied = false ∧ h = ⟨path, .ofText path, 0⟩ ∧
      u' = { u with storage := u.storage.opened (.ofText path) } := by
  rcases openFile_cases path u with ⟨e, u'', -, hfailed⟩ | ⟨hdenied, hopened⟩
  · cases hfailed.symm.trans hopen
  · obtain ⟨hhandle, rfl⟩ := Prod.mk.inj (hopened.symm.trans hopen)
    exact ⟨hdenied, (Except.ok.inj hhandle).symm, rfl⟩

/-! ## Reading to the end -/

/-- A limit on reads lets at least one byte through. -/
theorem limited_pos {n : Nat} (h : 0 < n) (u : Unreliable Memory) : 0 < u.limited n := by
  unfold limited
  split
  · exact h
  · exact h
  next limit hzero _ => exact Nat.lt_min.2 ⟨h, Nat.pos_of_ne_zero hzero⟩

variable {file : Path} {bytes : List UInt8}

/-- A file is read as a whole, in however many pieces. -/
theorem readToEnd_eq (path : String) (hfault : ∀ f, u.fault = some f → f.operation ≠ .read)
    (hdenied : u.storage.denied = false) (hfile : u.storage.contents? file = some bytes) :
    Storage.readToEnd ⟨path, file, 0⟩ u = (.ok (bytes, ⟨path, file, bytes.length⟩), u) := by
  have hread (h : Handle) (heq : h.file = file) (hcursor : h.cursor ≤ bytes.length) :
      Storage.read h Storage.pieceSize u = (.ok ((bytes.drop h.cursor).take
        (u.limited Storage.pieceSize), { h with cursor := h.cursor +
          ((bytes.drop h.cursor).take (u.limited Storage.pieceSize)).length }), u) := by
    have hpiece := Memory.read_eq hdenied (heq ▸ hfile) hcursor (u.limited Storage.pieceSize)
    change attempt .read h.path _ u = _
    rw [attempt_of_no_fault hfault, hpiece]
  obtain ⟨_, -, hall⟩ := Storage.readFrom_of_pieces (fun _ => u) (h := ⟨path, file, 0⟩)
    (fun _ => limited_pos (by decide) u) (fun _ => hread) rfl (Nat.zero_le _) [] 0
  simpa [Storage.readToEnd] using hall

/-- Reading fails at the first piece. -/
theorem readToEnd_of_fault {f : Fault} {h : Handle} (hfault : u.fault = some f)
    (hoperation : f.operation = .read) :
    Storage.readToEnd h u = (.error (.ofFile h.path f.cause), { u with fault := none }) := by
  have hread : Storage.read h Storage.pieceSize u =
      (.error (.ofFile h.path f.cause), { u with fault := none }) :=
    attempt_of_fault hfault hoperation
  exact Storage.readFrom_of_error hread []

/-! ## Replacing the bytes of a file -/

/-- Cutting a file to nothing fails, or it is carried out. -/
theorem truncate_cases (h : Handle) (u : Unreliable Memory) :
    (∃ e u', Fails .truncate h.path u e u' ∧ Storage.truncate h 0 u = (.error e, u')) ∨
      (u.storage.isWritable = true ∧ Storage.truncate h 0 u =
        (.ok { h with cursor := 0 }, { u with storage := u.storage.put h.file [] })) := by
  rcases attempt_cases .truncate h.path (Storage.truncate h 0) u with
    ⟨f, hfault, hoperation, hattempt⟩ | hattempt
  · exact .inl ⟨_, _, .fault hfault hoperation, hattempt⟩
  · cases hwritable : u.storage.isWritable with
    | false =>
      rw [Memory.truncate_of_not_writable hwritable] at hattempt
      refine .inl ⟨_, u, ?_, hattempt⟩
      cases hdenied : u.storage.denied with
      | true => exact .denied hdenied
      | false => exact .readOnly (by simpa [Memory.isWritable, hdenied] using hwritable) (by decide)
    | true =>
      rw [Memory.truncate_eq hwritable] at hattempt
      exact .inr ⟨rfl, hattempt⟩

/-- Behind the cut, only a fault keeps the bytes of an open file from being replaced. It strikes
before the bytes are written, or after. -/
theorem replaceBytes_of_truncate {h : Handle}
    (hwritable : u.storage.isWritable = true) (htruncate : Storage.truncate h 0 u =
      (.ok { h with cursor := 0 }, { u with storage := u.storage.put h.file [] }))
    (path : String) (hpath : h.path = path) (bytes : List UInt8) :
    (∃ f, u.fault = some f ∧ f.operation = .write ∧ RuleStore.replaceBytes path h bytes u =
        (.error (.unwritable path (.ofFile path f.cause)),
          { u with storage := u.storage.put h.file [], fault := none })) ∨
      (∃ f, u.fault = some f ∧ f.operation = .close ∧ RuleStore.replaceBytes path h bytes u =
        (.error (.unwritable path (.ofFile path f.cause)),
          { u with storage := u.storage.rewritten h.file bytes, fault := none })) ∨
      RuleStore.replaceBytes path h bytes u =
        (.ok (), { u with storage := u.storage.rewritten h.file bytes }) := by
  subst hpath
  -- What is left is the write and the close, and the storage allows both.
  simp only [RuleStore.replaceBytes, htruncate]
  rcases attempt_cases .write h.path (Storage.write { h with cursor := 0 } bytes)
    { u with storage := u.storage.put h.file [] } with ⟨f, hfault, hoperation, hattempt⟩ | hattempt
  · have hwrite : Storage.write { h with cursor := 0 } bytes
        { u with storage := u.storage.put h.file [] } = _ := hattempt
    exact .inl ⟨f, hfault, hoperation, by rw [hwrite]⟩
  · rw [Memory.write_eq hwritable] at hattempt
    have hwrite : Storage.write { h with cursor := 0 } bytes
        { u with storage := u.storage.put h.file [] } = _ := hattempt
    rw [hwrite]
    rcases attempt_cases .close h.path (Storage.close { h with cursor := bytes.length })
      { u with storage := u.storage.rewritten h.file bytes } with
      ⟨f, hfault, hoperation, hattempt⟩ | hattempt
    · have hclose : Storage.close { h with cursor := bytes.length }
          { u with storage := u.storage.rewritten h.file bytes } = _ := hattempt
      exact .inr (.inl ⟨f, hfault, hoperation, by simp only [hclose]⟩)
    · have hclose : Storage.close { h with cursor := bytes.length }
          { u with storage := u.storage.rewritten h.file bytes } = _ := hattempt
      exact .inr (.inr (by simp only [hclose]; rfl))

end Unreliable

/-! ## Editing a rule file -/

namespace RuleStore

open Unreliable

variable {α : Type}

/-- The ways that an edit of a rule file can go, with its result and the storage behind it. -/
inductive Transaction (path : String) (edit : Edit α) (u : Unreliable Memory) :
    Except RuleError α × Unreliable Memory → Prop
  /-- The file could not be opened. -/
  | unopened {e : StorageError} {u' : Unreliable Memory} (hfails : Fails .openFile path u e u') :
    Transaction path edit u (.error (.acquire path e), u')
  /-- The file could not be read. -/
  | unread {f : Fault} (hfault : u.fault = some f) (hoperation : f.operation = .read) :
    Transaction path edit u (.error (.unreadable path (.ofFile path f.cause)),
      { u with storage := u.storage.opened (.ofText path), fault := none })
  /-- The file holds no rule document. -/
  | malformed {e : DocumentError}
      (hdocument : Document.ofBytes (u.storage.bytesAt (.ofText path)) = .error e) :
    Transaction path edit u
      (.error (.malformed e), { u with storage := u.storage.opened (.ofText path) })
  /-- The file could not be cut. -/
  | uncut {d : Document} {e : StorageError} {u' : Unreliable Memory}
      (hdocument : Document.ofBytes (u.storage.bytesAt (.ofText path)) = .ok d)
      (hfails : Fails .truncate path { u with storage := u.storage.opened (.ofText path) } e u') :
    Transaction path edit u (.error (.unwritable path e), u')
  /-- The file has been cut, but could not be written. -/
  | unwritten {d : Document} {f : Fault} (hwritable : u.storage.isWritable = true)
      (hdocument : Document.ofBytes (u.storage.bytesAt (.ofText path)) = .ok d)
      (hfault : u.fault = some f) (hoperation : f.operation = .write) :
    Transaction path edit u (.error (.unwritable path (.ofFile path f.cause)),
      { u with storage := u.storage.put (.ofText path) [], fault := none })
  /-- The file has been written, but could not be closed. -/
  | unclosed {d : Document} {f : Fault} (hwritable : u.storage.isWritable = true)
      (hdocument : Document.ofBytes (u.storage.bytesAt (.ofText path)) = .ok d)
      (hfault : u.fault = some f) (hoperation : f.operation = .close) :
    Transaction path edit u (.error (.unwritable path (.ofFile path f.cause)),
      { u with storage := u.storage.rewritten (.ofText path) (edit d).2.toBytes, fault := none })
  /-- The edited document has been written. -/
  | written {d : Document} (hwritable : u.storage.isWritable = true)
      (hdocument : Document.ofBytes (u.storage.bytesAt (.ofText path)) = .ok d) :
    Transaction path edit u
      (.ok (edit d).1, { u with storage := u.storage.rewritten (.ofText path) (edit d).2.toBytes })

/-- There are no other ways. -/
theorem transaction_transact (path : String) (edit : Edit α) (u : Unreliable Memory) :
    Transaction path edit u (transact path edit u) := by
  rcases openFile_cases path u with ⟨e, u', hfails, hopen⟩ | ⟨hdenied, hopen⟩
  · rw [transact, hopen]
    exact .unopened hfails
  by_cases hread : ∃ f, u.fault = some f ∧ f.operation = .read
  · obtain ⟨f, hfault, hoperation⟩ := hread
    have hread := readToEnd_of_fault (u := { u with storage := u.storage.opened (.ofText path) })
      (h := ⟨path, .ofText path, 0⟩) hfault hoperation
    rw [transact, hopen]
    simp only [hread]
    exact .unread hfault hoperation
  -- From here on the file is there, and a missing one counts as an empty one.
  have hcontents := u.storage.contents?_opened (.ofText path)
  have hread := readToEnd_eq (u := { u with storage := u.storage.opened (.ofText path) }) path
    (fun f hfault hoperation => hread ⟨f, hfault, hoperation⟩)
    ((Memory.denied_opened u.storage _).trans hdenied) hcontents
  rw [transact, hopen]
  simp only [hread]
  cases hdocument : Document.ofBytes (u.storage.bytesAt (.ofText path)) with
  | error e => exact .malformed hdocument
  | ok d =>
    rcases truncate_cases ⟨path, .ofText path, (u.storage.bytesAt (.ofText path)).length⟩
      { u with storage := u.storage.opened (.ofText path) } with
      ⟨e, u', hfails, htruncate⟩ | ⟨hwritable, htruncate⟩
    · simp only [replaceBytes, htruncate]
      exact .uncut hdocument hfails
    · have hreplace := replaceBytes_of_truncate hwritable htruncate path rfl (edit d).2.toBytes
      simp only [Memory.put_opened, Memory.rewritten_opened] at hreplace
      rw [Memory.isWritable_opened] at hwritable
      rcases hreplace with ⟨f, hfault, hoperation, hreplace⟩ |
        ⟨f, hfault, hoperation, hreplace⟩ | hreplace
      · simp only [hreplace]
        exact .unwritten hwritable hdocument hfault hoperation
      · simp only [hreplace]
        exact .unclosed hwritable hdocument hfault hoperation
      · simp only [hreplace]
        exact .written hwritable hdocument

end RuleStore
end IntentFirewall
