import IntentFirewall.Storage.Error
import IntentFirewall.Storage.Path

/-!
# Storages

A storage holds files that can be looked up, read as a whole, and opened. Every operation takes
the state of the storage and answers with a result and the next state, so that a failure, too, may
leave a trace.

## Main definitions

* `Storage`: the operations. An open file is a `Handle`, whose cursor moves only by its own
  operations; each of them answers with the handle to go on with.
* `Storage.readToEnd`: the bytes from the cursor to the end, read piece by piece.
-/

namespace IntentFirewall

/-- An open file. -/
structure Handle where
  /-- The path by which the file was opened. -/
  path : String
  /-- The place of the file. -/
  file : Path
  /-- The number of bytes before the next one to read or write. -/
  cursor : Nat
  deriving DecidableEq, Repr

/-- The operations of a storage with states in `σ`. -/
class Storage (σ : Type) where
  /-- Whether there is a file at a path. -/
  isFile : String → σ → Except StorageError Bool × σ
  /-- The bytes of the file at a path. -/
  readAll : String → σ → Except StorageError (List UInt8) × σ
  /-- Opens the file at a path, which is created if it is missing. -/
  openFile : String → σ → Except StorageError Handle × σ
  /-- Reads at most so many bytes from the cursor on; none at the end of the file. -/
  read : Handle → Nat → σ → Except StorageError (List UInt8 × Handle) × σ
  /-- Cuts a file to a length and moves the cursor to the start. -/
  truncate : Handle → Nat → σ → Except StorageError Handle × σ
  /-- Writes bytes from the cursor on. -/
  write : Handle → List UInt8 → σ → Except StorageError Handle × σ
  /-- Closes an open file. -/
  close : Handle → σ → Except StorageError Unit × σ
  /-- The number of bytes that can still be read. -/
  remaining : Handle → σ → Nat
  /-- Bytes that were read cannot be read again. -/
  remaining_of_read : ∀ {h n s bytes h' s'},
    read h n s = (.ok (bytes, h'), s') → bytes ≠ [] → remaining h' s' < remaining h s

namespace Storage

variable {σ : Type} [Storage σ]

/-- The number of bytes that are read at a time. -/
def pieceSize : Nat := 8192

/-- Reads to the end of a file, given the bytes already read, newest first. -/
def readFrom (h : Handle) (acc : List UInt8) (s : σ) :
    Except StorageError (List UInt8 × Handle) × σ :=
  match _hread : read h pieceSize s with
  | (.error e, s') => (.error e, s')
  | (.ok ([], h'), s') => (.ok (acc.reverse, h'), s')
  | (.ok (b :: bytes, h'), s') => readFrom h' (bytes.reverse ++ b :: acc) s'
termination_by remaining h s
decreasing_by exact remaining_of_read _hread (by simp)

/-- The bytes of an open file from the cursor to the end. -/
def readToEnd (h : Handle) (s : σ) : Except StorageError (List UInt8 × Handle) × σ :=
  readFrom h [] s

end Storage
end IntentFirewall
