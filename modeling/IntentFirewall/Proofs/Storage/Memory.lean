import IntentFirewall.Rules.RuleStore
import IntentFirewall.Storage.Memory

/-!
# Files in memory

What the operations of an open file come to when they are carried out one after the other, on a
storage in memory that allows them.

* `Memory.readToEnd_eq`: the bytes of a file are read as a whole.
* `Memory.replaceBytes_eq`: the bytes of a file are replaced.
* `RuleStore.transact_eq`: an edit of a rule file reads the document, and writes the edited one.
-/

namespace IntentFirewall

theorem Table.put_put {κ α : Type} [BEq κ] [LawfulBEq κ] (key : κ) (old new : α) (t : Table κ α) :
    put key new (put key old t) = put key new t := by
  induction t with
  | nil => simp [put]
  | cons p rest ih =>
    rw [put]
    split
    next h => simp [put, h]
    next h => rw [put, if_neg h, ih, put, if_neg h]

/-! ## Reading to the end -/

namespace Storage

variable {σ : Type} [Storage σ] {h h' : Handle} {s s' : σ}

theorem readFrom_of_error {e : StorageError} (hread : read h pieceSize s = (.error e, s'))
    (acc : List UInt8) : readFrom h acc s = (.error e, s') := by
  rw [readFrom]
  split <;> simp_all

theorem readFrom_of_end (hread : read h pieceSize s = (.ok ([], h'), s')) (acc : List UInt8) :
    readFrom h acc s = (.ok (acc.reverse, h'), s') := by
  rw [readFrom]
  split <;> simp_all

theorem readFrom_of_piece {piece : List UInt8} (hpiece : piece ≠ [])
    (hread : read h pieceSize s = (.ok (piece, h'), s')) (acc : List UInt8) :
    readFrom h acc s = readFrom h' (piece.reverse ++ acc) s' := by
  rw [readFrom]
  split
  next heq => simp [hread] at heq
  next heq => simp_all
  next b bytes h₁ s₁ heq =>
    obtain ⟨⟨rfl, rfl⟩, rfl⟩ : (b :: bytes = piece ∧ h₁ = h') ∧ s₁ = s' := by
      simpa [hread, eq_comm] using heq
    simp

/-- A read that yields the bytes from the cursor on tells the end of the file, or a piece is kept. -/
theorem readFrom_of_take {bytes : List UInt8} {size : Nat} (hsize : 0 < size)
    (hcursor : h.cursor ≤ bytes.length)
    (hread : read h pieceSize s = (.ok ((bytes.drop h.cursor).take size,
      { h with cursor := h.cursor + ((bytes.drop h.cursor).take size).length }), s'))
    (acc : List UInt8) :
    (h.cursor = bytes.length ∧
        readFrom h acc s = (.ok (acc.reverse, { h with cursor := bytes.length }), s')) ∨
      (h.cursor < bytes.length ∧ readFrom h acc s =
        readFrom { h with cursor := h.cursor + min size (bytes.length - h.cursor) }
          (((bytes.drop h.cursor).take size).reverse ++ acc) s') := by
  have hlength : ((bytes.drop h.cursor).take size).length =
      min size (bytes.length - h.cursor) := by
    rw [List.length_take, List.length_drop]
  rw [hlength] at hread
  by_cases hend : h.cursor = bytes.length
  · -- An empty piece tells the end of the file.
    rw [hend, Nat.sub_self, Nat.min_zero, List.drop_length, List.take_nil] at hread
    exact .inl ⟨hend, readFrom_of_end hread acc⟩
  · have hne : (bytes.drop h.cursor).take size ≠ [] := by
      rw [← List.length_pos_iff, hlength]
      omega
    exact .inr ⟨by omega, readFrom_of_piece hne hread acc⟩

/-- What is kept of a piece and what is behind it are what was behind the cursor. -/
theorem reverse_take_append_drop (bytes acc : List UInt8) (cursor size : Nat) :
    (((bytes.drop cursor).take size).reverse ++ acc).reverse ++
        bytes.drop (cursor + min size (bytes.length - cursor)) =
      acc.reverse ++ bytes.drop cursor := by
  have hdrop : bytes.drop (cursor + min size (bytes.length - cursor)) =
      (bytes.drop cursor).drop size := by
    rw [List.drop_drop]
    by_cases hlong : size ≤ bytes.length - cursor
    · rw [Nat.min_eq_left hlong]
    · rw [List.drop_of_length_le (by omega), List.drop_of_length_le (by omega)]
  rw [hdrop, List.reverse_append, List.reverse_reverse, List.append_assoc, List.take_append_drop]

/-- A file is read as a whole, however few bytes each of its reads yields, if it is at least one.
There is at most one read for each byte, and one that tells the end. -/
theorem readFrom_of_pieces (states : Nat → σ) {file : Path} {bytes : List UInt8}
    {size : Nat → Nat} (hsize : ∀ k, 0 < size k)
    (hread : ∀ (k : Nat) (h : Handle), h.file = file → h.cursor ≤ bytes.length →
      read h pieceSize (states k) = (.ok ((bytes.drop h.cursor).take (size k),
        { h with cursor := h.cursor + ((bytes.drop h.cursor).take (size k)).length }),
          states (k + 1)))
    (hfile : h.file = file) (hcursor : h.cursor ≤ bytes.length) (acc : List UInt8) (k : Nat) :
    ∃ reads ≤ bytes.length - h.cursor + 1, readFrom h acc (states k) =
      (.ok (acc.reverse ++ bytes.drop h.cursor, { h with cursor := bytes.length }),
        states (k + reads)) := by
  -- The induction is on the number of bytes that are left to read.
  generalize hleft : bytes.length - h.cursor = left
  induction left using Nat.strongRecOn generalizing h acc k with
  | ind left ih =>
    have hpositive := hsize k
    rcases readFrom_of_take hpositive hcursor (hread k h hfile hcursor) acc with
      ⟨hend, hdone⟩ | ⟨hmore, hpiece⟩
    · refine ⟨1, by omega, ?_⟩
      rw [hdone, hend, List.drop_length, List.append_nil]
    · obtain ⟨reads, hreads, hrest⟩ := ih
        (bytes.length - (h.cursor + min (size k) (bytes.length - h.cursor))) (by omega)
        (h := { h with cursor := h.cursor + min (size k) (bytes.length - h.cursor) }) hfile
        (by simp only; omega) (((bytes.drop h.cursor).take (size k)).reverse ++ acc) (k + 1) rfl
      refine ⟨reads + 1, by omega, ?_⟩
      rw [hpiece, hrest, reverse_take_append_drop, Nat.add_right_comm, Nat.add_assoc]

end Storage

namespace Memory

variable {m : Memory}

/-- The bytes of the file at a place; a missing file has none. -/
def bytesAt (m : Memory) (file : Path) : List UInt8 := (m.contents? file).getD []

/-- The storage behind the opening of a file, which is created if it is missing. -/
def opened (m : Memory) (file : Path) : Memory :=
  if (m.contents? file).isSome then m else m.put file []

/-- The storage behind the replacement of the bytes of a file, which is one write. -/
def rewritten (m : Memory) (file : Path) (bytes : List UInt8) : Memory :=
  { m.put file bytes with writes := m.writes + 1 }

theorem put_put (m : Memory) (file : Path) (old new : List UInt8) :
    (m.put file old).put file new = m.put file new := by
  simp [put, Table.put_put]

theorem contents?_opened (m : Memory) (file : Path) :
    (m.opened file).contents? file = some (m.bytesAt file) := by
  rw [opened, bytesAt]
  cases h : m.contents? file <;> simp [h]

theorem contents?_opened_of_ne {file other : Path} (h : other ≠ file) (m : Memory) :
    (m.opened file).contents? other = m.contents? other := by
  rw [opened]
  split
  · rfl
  · exact contents?_put_of_ne h m []

/-- A file that is created has no bytes, as it had none before. -/
theorem bytesAt_opened (m : Memory) (file other : Path) :
    (m.opened file).bytesAt other = m.bytesAt other := by
  by_cases h : other = file
  · rw [h, bytesAt, contents?_opened, Option.getD_some]
  · rw [bytesAt, bytesAt, contents?_opened_of_ne h]

theorem put_opened (m : Memory) (file : Path) (bytes : List UInt8) :
    (m.opened file).put file bytes = m.put file bytes := by
  rw [opened]
  split
  · rfl
  · exact m.put_put file [] bytes

/-- What does not depend on the files is the same behind the opening of one. -/
theorem view_opened {β : Type} (view : Memory → β) {file : Path}
    (hput : view (m.put file []) = view m) : view (m.opened file) = view m := by
  rw [opened]
  split
  · rfl
  · exact hput

theorem denied_opened (m : Memory) (file : Path) : (m.opened file).denied = m.denied :=
  view_opened denied rfl

theorem readOnly_opened (m : Memory) (file : Path) : (m.opened file).readOnly = m.readOnly :=
  view_opened readOnly rfl

theorem writes_opened (m : Memory) (file : Path) : (m.opened file).writes = m.writes :=
  view_opened writes rfl

theorem rewritten_opened (m : Memory) (file : Path) (bytes : List UInt8) :
    (m.opened file).rewritten file bytes = m.rewritten file bytes := by
  rw [rewritten, put_opened, writes_opened, rewritten]

theorem rewritten_put (m : Memory) (file : Path) (old new : List UInt8) :
    (m.put file old).rewritten file new = m.rewritten file new := by
  rw [rewritten, put_put]
  rfl

theorem isFile_snd (path : String) (m : Memory) : (Storage.isFile path m).2 = m := by
  change (Memory.isFile path m).2 = m
  unfold Memory.isFile
  split <;> rfl

theorem readAll_snd (path : String) (m : Memory) : (Storage.readAll path m).2 = m := by
  change (Memory.readAll path m).2 = m
  unfold Memory.readAll
  split
  · rfl
  · split <;> rfl

/-- A read yields the bytes from the cursor on, at most as many as are asked for. -/
theorem read_eq {h : Handle} {bytes : List UInt8} (hdenied : m.denied = false)
    (hfile : m.contents? h.file = some bytes) (hcursor : h.cursor ≤ bytes.length) (n : Nat) :
    Storage.read h n m = (.ok ((bytes.drop h.cursor).take n,
      { h with cursor := h.cursor + ((bytes.drop h.cursor).take n).length }), m) := by
  change Memory.read h n m = _
  simp [Memory.read, hdenied, hfile, Nat.min_eq_left hcursor]

/-- The bytes of a file are read as a whole. -/
theorem readToEnd_eq (path : String) {file : Path} {bytes : List UInt8} (hdenied : m.denied = false)
    (hfile : m.contents? file = some bytes) :
    Storage.readToEnd ⟨path, file, 0⟩ m = (.ok (bytes, ⟨path, file, bytes.length⟩), m) := by
  have hread (h : Handle) (heq : h.file = file) (hcursor : h.cursor ≤ bytes.length) :=
    read_eq hdenied (heq ▸ hfile) hcursor Storage.pieceSize
  obtain ⟨_, -, hall⟩ := Storage.readFrom_of_pieces (fun _ => m) (h := ⟨path, file, 0⟩)
    (fun _ => (by decide : 0 < Storage.pieceSize)) (fun _ => hread) rfl (Nat.zero_le _) [] 0
  simpa [Storage.readToEnd] using hall

/-! ## Replacing the bytes of a file -/

theorem isWritable_iff : m.isWritable = true ↔ m.denied = false ∧ m.readOnly = false := by
  simp [isWritable]

theorem isWritable_opened (m : Memory) (file : Path) :
    (m.opened file).isWritable = m.isWritable :=
  view_opened isWritable rfl

/-- A file is opened, a missing one being created. -/
theorem openFile_eq (hwritable : m.isWritable = true) (path : String) :
    Storage.openFile path m = (.ok ⟨path, .ofText path, 0⟩, m.opened (.ofText path)) := by
  obtain ⟨hdenied, hreadOnly⟩ := isWritable_iff.1 hwritable
  change Memory.openFile path m = _
  rw [Memory.openFile, opened]
  cases m.contents? (.ofText path) <;> simp [hdenied, hreadOnly]

/-- An open file is cut to nothing. -/
theorem truncate_eq (hwritable : m.isWritable = true) (h : Handle) :
    Storage.truncate h 0 m = (.ok { h with cursor := 0 }, m.put h.file []) := by
  change Memory.truncate h 0 m = _
  simp [truncate, hwritable]

theorem truncate_of_not_writable (hwritable : m.isWritable = false) (h : Handle) :
    Storage.truncate h 0 m = (.error (.permissionDenied h.path), m) := by
  change Memory.truncate h 0 m = _
  simp [truncate, hwritable]

/-- Bytes are written to a file that has been cut. -/
theorem write_eq (hwritable : m.isWritable = true) (h : Handle) (bytes : List UInt8) :
    Storage.write { h with cursor := 0 } bytes (m.put h.file []) =
      (.ok { h with cursor := bytes.length }, m.rewritten h.file bytes) := by
  have hput : (m.put h.file []).isWritable = true := hwritable
  change Memory.write { h with cursor := 0 } bytes (m.put h.file []) = _
  simp [write, hput, Bytes.overwrite, Bytes.resize, put_put, rewritten]
  rfl

/-- The bytes of an open file are replaced. -/
theorem replaceBytes_eq (hwritable : m.isWritable = true) (path : String) (h : Handle)
    (bytes : List UInt8) :
    RuleStore.replaceBytes path h bytes m = (.ok (), m.rewritten h.file bytes) := by
  simp only [RuleStore.replaceBytes, truncate_eq hwritable, write_eq hwritable]
  rfl

end Memory

/-! ## Editing a rule file -/

namespace RuleStore

variable {α : Type} {m : Memory}

/-- An edit of a rule file reads the document, a missing file being created, and writes the edited
one. Nothing is written if the file is no rule document. -/
theorem transact_eq (hwritable : m.isWritable = true) (path : String) (edit : Edit α) :
    transact path edit m =
      match Document.ofBytes (m.bytesAt (.ofText path)) with
      | .error e => (.error (.malformed e), m.opened (.ofText path))
      | .ok d => (.ok (edit d).1, m.rewritten (.ofText path) (edit d).2.toBytes) := by
  have hopened := m.isWritable_opened (.ofText path)
  rw [hwritable] at hopened
  have hread := Memory.readToEnd_eq path (Memory.isWritable_iff.1 hopened).1
    (m.contents?_opened (.ofText path))
  simp only [transact, Memory.openFile_eq hwritable, hread]
  cases Document.ofBytes (m.bytesAt (.ofText path)) with
  | error e => rfl
  | ok d => simp only [Memory.replaceBytes_eq hopened, Memory.rewritten_opened]

/-- A rule file that has been edited can be written. -/
theorem isWritable_of_transact {m' : Memory} {path : String} {edit : Edit α} {answer : α}
    (h : transact path edit m = (.ok answer, m')) : m.isWritable = true := by
  -- Otherwise the file cannot be created, or the bytes that it has cannot be cut off.
  refine Decidable.byContradiction fun hwritable => ?_
  rw [Bool.not_eq_true] at hwritable
  have htruncate := Memory.truncate_of_not_writable hwritable
  rw [Bool.eq_false_iff, ne_eq, Memory.isWritable_iff, not_and, Bool.not_eq_false] at hwritable
  have hopen : Storage.openFile path m = Memory.openFile path m := rfl
  rw [transact, hopen, Memory.openFile] at h
  cases hdenied : m.denied with
  | true => simp [hdenied] at h
  | false =>
    cases hfile : m.contents? (.ofText path) with
    | none => simp [hdenied, hfile, hwritable hdenied] at h
    | some bytes =>
      simp only [hdenied, Bool.false_eq_true, if_false, hfile,
        Memory.readToEnd_eq path hdenied hfile] at h
      cases hdocument : Document.ofBytes bytes with
      | error e => simp [hdocument] at h
      | ok d => simp [hdocument, replaceBytes, htruncate] at h

end RuleStore
end IntentFirewall
