import IntentFirewall.Storage.Basic

/-!
# Unreliable storage

A storage whose next use of one operation fails instead of being carried out, and whose reads may
be short. Both leave the files alone: a fault is gone once it has struck, and a short read leaves
the rest for the next one.
-/

namespace IntentFirewall

/-- The operations that can fail. -/
inductive Operation
  /-- Looking whether there is a file. -/
  | isFile
  /-- Reading a file as a whole. -/
  | readAll
  /-- Opening a file. -/
  | openFile
  /-- Reading from an open file. -/
  | read
  /-- Cutting an open file. -/
  | truncate
  /-- Writing to an open file. -/
  | write
  /-- Closing an open file. -/
  | close
  deriving DecidableEq, Repr

/-- A failure to come. -/
structure Fault where
  /-- The operation that will fail. -/
  operation : Operation
  /-- The reason that will be given. -/
  cause : FileError
  deriving DecidableEq, Repr

/-- A storage with a failure to come, or without one. -/
structure Unreliable (σ : Type) where
  /-- The storage that does the work. -/
  storage : σ
  /-- The failure to come. -/
  fault : Option Fault
  /-- The number of bytes that a read yields at most. -/
  readLimit : Option Nat
  deriving DecidableEq, Repr

namespace Unreliable

variable {σ : Type}

/-- A storage that works as it should. -/
def reliable (storage : σ) : Unreliable σ := ⟨storage, none, none⟩

/-- Carries out an operation on a path, or fails if that is due. -/
def attempt {α : Type} (operation : Operation) (path : String)
    (act : σ → Except StorageError α × σ) (u : Unreliable σ) :
    Except StorageError α × Unreliable σ :=
  match u.fault.filter (fun f => f.operation == operation) with
  | some f => (.error (.ofFile path f.cause), { u with fault := none })
  | none =>
    let (result, storage) := act u.storage
    (result, { u with storage := storage })

/-- The number of bytes to ask for when `n` are wanted. A limit of zero is none. -/
def limited (u : Unreliable σ) (n : Nat) : Nat :=
  match u.readLimit with
  | none => n
  | some 0 => n
  | some limit => min n limit

theorem storage_of_attempt_ok {α : Type} {operation : Operation} {path : String}
    {act : σ → Except StorageError α × σ} {u u' : Unreliable σ} {a : α}
    (h : attempt operation path act u = (.ok a, u')) : act u.storage = (.ok a, u'.storage) := by
  rw [attempt] at h
  split at h
  · simp at h
  · simp only [Prod.mk.injEq] at h
    obtain ⟨hresult, rfl⟩ := h
    rw [← hresult]

instance [Storage σ] : Storage (Unreliable σ) where
  isFile path := attempt .isFile path (Storage.isFile path)
  readAll path := attempt .readAll path (Storage.readAll path)
  openFile path := attempt .openFile path (Storage.openFile path)
  read h n u := attempt .read h.path (Storage.read h (u.limited n)) u
  truncate h length := attempt .truncate h.path (Storage.truncate h length)
  write h bytes := attempt .write h.path (Storage.write h bytes)
  close h := attempt .close h.path (Storage.close h)
  remaining h u := Storage.remaining h u.storage
  remaining_of_read hread hbytes :=
    Storage.remaining_of_read (storage_of_attempt_ok hread) hbytes

end Unreliable
end IntentFirewall
