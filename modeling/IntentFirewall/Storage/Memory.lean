import IntentFirewall.Storage.Basic
import IntentFirewall.Storage.Bytes
import IntentFirewall.Storage.Table

/-!
# Storage in memory

Files are kept by place. The storage can be told to deny every access, or every change. It counts
the writes that were carried out.
-/

namespace IntentFirewall

/-- Files in memory. -/
structure Memory where
  /-- The files, each place once. -/
  files : Table Path (List UInt8)
  /-- Whether every access is denied. -/
  denied : Bool
  /-- Whether every change is denied. -/
  readOnly : Bool
  /-- The number of completed writes. -/
  writes : Nat
  deriving DecidableEq, Repr

namespace Memory

/-- A storage without files that allows everything. -/
def empty : Memory := ⟨[], false, false, 0⟩

/-- The bytes of the file at a place. -/
def contents? (m : Memory) (file : Path) : Option (List UInt8) := m.files.lookup file

/-- Gives a file new bytes. -/
def put (m : Memory) (file : Path) (bytes : List UInt8) : Memory :=
  { m with files := Table.put file bytes m.files }

@[simp]
theorem contents?_put_self (m : Memory) (file : Path) (bytes : List UInt8) :
    (m.put file bytes).contents? file = some bytes :=
  Table.lookup_put_self file bytes m.files

theorem contents?_put_of_ne {file other : Path} (h : other ≠ file) (m : Memory)
    (bytes : List UInt8) : (m.put file bytes).contents? other = m.contents? other :=
  Table.lookup_put_of_ne h bytes m.files

/-- Whether a file can be changed. -/
def isWritable (m : Memory) : Bool := !m.denied && !m.readOnly

/-- Whether there is a file at a path. -/
def isFile (path : String) (m : Memory) : Except StorageError Bool × Memory :=
  if m.denied then (.error (.permissionDenied path), m)
  else (.ok (m.contents? (.ofText path)).isSome, m)

/-- The bytes of the file at a path. -/
def readAll (path : String) (m : Memory) : Except StorageError (List UInt8) × Memory :=
  if m.denied then (.error (.permissionDenied path), m)
  else
    match m.contents? (.ofText path) with
    | some bytes => (.ok bytes, m)
    | none => (.error (.notFound path), m)

/-- Opens the file at a path. A missing file is created, which counts as a change. -/
def openFile (path : String) (m : Memory) : Except StorageError Handle × Memory :=
  let file := Path.ofText path
  if m.denied then (.error (.permissionDenied path), m)
  else
    match m.contents? file with
    | some _ => (.ok ⟨path, file, 0⟩, m)
    | none =>
      if m.readOnly then (.error (.permissionDenied path), m)
      else (.ok ⟨path, file, 0⟩, m.put file [])

/-- Reads at most `n` bytes. A cursor behind the end of the file moves back to the end. -/
def read (h : Handle) (n : Nat) (m : Memory) :
    Except StorageError (List UInt8 × Handle) × Memory :=
  if m.denied then (.error (.permissionDenied h.path), m)
  else
    match m.contents? h.file with
    | none => (.error (.notFound h.path), m)
    | some bytes =>
      let start := min h.cursor bytes.length
      let piece := (bytes.drop start).take n
      (.ok (piece, { h with cursor := start + piece.length }), m)

/-- Cuts a file to a length; a shorter file stays as it is. -/
def truncate (h : Handle) (length : Nat) (m : Memory) : Except StorageError Handle × Memory :=
  if m.isWritable then
    (.ok { h with cursor := 0 }, m.put h.file (((m.contents? h.file).getD []).take length))
  else (.error (.permissionDenied h.path), m)

/-- Writes bytes from the cursor on. Even without bytes, a file that ends before the cursor is
extended to it. -/
def write (h : Handle) (bytes : List UInt8) (m : Memory) : Except StorageError Handle × Memory :=
  if m.isWritable then
    let file := (m.contents? h.file).getD []
    (.ok { h with cursor := h.cursor + bytes.length },
      { m.put h.file (Bytes.overwrite h.cursor bytes file) with writes := m.writes + 1 })
  else (.error (.permissionDenied h.path), m)

/-- Closing always succeeds. -/
def close (_ : Handle) (m : Memory) : Except StorageError Unit × Memory := (.ok (), m)

/-- The number of bytes behind the cursor. -/
def remaining (h : Handle) (m : Memory) : Nat :=
  ((m.contents? h.file).getD []).length - h.cursor

theorem remaining_of_read {h h' : Handle} {n : Nat} {m m' : Memory} {bytes : List UInt8}
    (hread : read h n m = (.ok (bytes, h'), m')) (hbytes : bytes ≠ []) :
    remaining h' m' < remaining h m := by
  rw [read] at hread
  split at hread
  · simp at hread
  · split at hread
    · simp at hread
    next file hfile =>
      simp only [Prod.mk.injEq, Except.ok.injEq] at hread
      obtain ⟨⟨rfl, rfl⟩, rfl⟩ := hread
      have hlength := List.length_pos_iff.2 hbytes
      simp only [List.length_take, List.length_drop] at hlength
      simp only [remaining, hfile, Option.getD_some, List.length_take, List.length_drop]
      omega

instance : Storage Memory where
  isFile := isFile
  readAll := readAll
  openFile := openFile
  read := read
  truncate := truncate
  write := write
  close := close
  remaining := remaining
  remaining_of_read := remaining_of_read

end Memory
end IntentFirewall
