import IntentFirewall.Proofs.Storage.FileTree
import IntentFirewall.Proofs.Storage.Faults

/-!
# Files that can be seen

The bytes of the files of a storage are there, whether or not anybody reads them. What is done to
look at a file changes none of them, and a file that has been opened can be read.

## Main definitions

* `Storage.Transparent`: a storage whose files can be seen.
* `Storage.IsOpened`: what holds of a file that has been opened.
* `Storage.Readable`: a storage in which this holds whenever opening a file succeeds. Files in
  memory and files on a disk are such storages.
-/

namespace IntentFirewall

namespace Storage

/-- A storage whose files can be seen. -/
class Transparent (σ : Type) [Storage σ] where
  /-- The bytes of the file at a place. -/
  bytes? : Path → σ → Option (List UInt8)
  /-- Looking whether there is a file changes no file. -/
  bytes?_isFile : ∀ (file : Path) (path : String) (s : σ),
    bytes? file (Storage.isFile path s).2 = bytes? file s
  /-- Reading a file as a whole changes no file. -/
  bytes?_readAll : ∀ (file : Path) (path : String) (s : σ),
    bytes? file (Storage.readAll path s).2 = bytes? file s

variable {σ : Type} [Storage σ] [Transparent σ]

/-- The bytes of the file at a place; a missing file has none. -/
def bytesAt (file : Path) (s : σ) : List UInt8 := (Transparent.bytes? file s).getD []

/-- A file has been opened. -/
structure IsOpened (h : Handle) (s s' : σ) : Prop where
  /-- Nothing has been read yet. -/
  cursor_eq : h.cursor = 0
  /-- The file has the bytes that it had before. A missing one has been created without any. -/
  bytes?_eq : Transparent.bytes? h.file s' = some (bytesAt h.file s)
  /-- A read yields the bytes from the cursor on, as many as are asked for, and changes nothing. -/
  read_eq : ∀ (h' : Handle) (n : Nat), h'.file = h.file → h'.cursor ≤ (bytesAt h.file s).length →
    Storage.read h' n s' = (.ok (((bytesAt h.file s).drop h'.cursor).take n,
      { h' with cursor := h'.cursor + (((bytesAt h.file s).drop h'.cursor).take n).length }), s')

/-- A file that has been opened is read as a whole. -/
theorem IsOpened.readToEnd_eq {h : Handle} {s s' : σ} (hopened : IsOpened h s s') :
    readToEnd h s' = (.ok (bytesAt h.file s, { h with cursor := (bytesAt h.file s).length }),
      s') := by
  obtain ⟨_, -, hall⟩ := readFrom_of_pieces (fun _ => s') (fun _ => (by decide : 0 < pieceSize))
    (fun _ h' => hopened.read_eq h' pieceSize) rfl (hopened.cursor_eq ▸ Nat.zero_le _) [] 0
  simpa [readToEnd, hopened.cursor_eq] using hall

/-- A storage in which files that have been opened can be read. -/
class Readable (σ : Type) [Storage σ] [Transparent σ] : Prop where
  /-- Opening a file fails, or it can be read then. -/
  isOpened : ∀ {path : String} {h : Handle} {s s' : σ},
    Storage.openFile path s = (.ok h, s') → IsOpened h s s'

end Storage

/-! ## Files in memory -/

namespace Memory

instance : Storage.Transparent Memory where
  bytes? file m := m.contents? file
  bytes?_isFile file path m := by rw [isFile_snd]
  bytes?_readAll file path m := by rw [readAll_snd]

/-- A file is opened only if access is allowed. -/
theorem eq_of_openFile {path : String} {h : Handle} {m m' : Memory}
    (hopen : Storage.openFile path m = (.ok h, m')) :
    m.denied = false ∧ h = ⟨path, .ofText path, 0⟩ ∧ m' = m.opened (.ofText path) := by
  change Memory.openFile path m = _ at hopen
  rw [Memory.openFile] at hopen
  cases hdenied : m.denied with
  | true => simp [hdenied] at hopen
  | false =>
    cases hfile : m.contents? (.ofText path) with
    | some bytes =>
      simp only [hdenied, hfile, Bool.false_eq_true, if_false, Prod.mk.injEq,
        Except.ok.injEq] at hopen
      exact ⟨rfl, hopen.1.symm, hopen.2.symm.trans (by simp [opened, hfile])⟩
    | none =>
      cases hreadOnly : m.readOnly with
      | true => simp [hdenied, hfile, hreadOnly] at hopen
      | false =>
        simp only [hdenied, hfile, hreadOnly, Bool.false_eq_true, if_false, Prod.mk.injEq,
          Except.ok.injEq] at hopen
        exact ⟨rfl, hopen.1.symm, hopen.2.symm.trans (by simp [opened, hfile])⟩

instance : Storage.Readable Memory where
  isOpened {path h m m'} hopen := by
    obtain ⟨hdenied, rfl, rfl⟩ := eq_of_openFile hopen
    have hcontents := m.contents?_opened (.ofText path)
    refine ⟨rfl, hcontents, ?_⟩
    intro h' n hfile hcursor
    have hallowed := (denied_opened m (.ofText path)).trans hdenied
    exact read_eq hallowed (hfile.symm ▸ hcontents) hcursor n

end Memory

/-! ## Storages that cannot be relied on -/

instance {σ : Type} [Storage σ] [Storage.Transparent σ] : Storage.Transparent (Unreliable σ) where
  bytes? file u := Storage.Transparent.bytes? file u.storage
  bytes?_isFile file path u :=
    Unreliable.view_attempt (Storage.Transparent.bytes? file)
      (Storage.Transparent.bytes?_isFile file path u.storage)
  bytes?_readAll file path u :=
    Unreliable.view_attempt (Storage.Transparent.bytes? file)
      (Storage.Transparent.bytes?_readAll file path u.storage)

/-! ## Files on a disk -/

namespace FileTree

variable {t u : FileTree} {place start names : List String} {path : String}

/-- A new directory is no file, and other files stay as they are. -/
theorem bytes?_put_directory (h : t.node? place = none) (other : List String) :
    (t.put place .directory).bytes? other = t.bytes? other := by
  by_cases heq : other = place
  · subst heq
    have hne : other ≠ [] := by
      rintro rfl
      simp [node?_root] at h
    rw [bytes?, bytes?, node?_put_self hne, h]
  · rw [bytes?, bytes?, node?_put_of_ne heq]

theorem bytes?_of_makeDirectory (h : t.makeDirectory start names = .ok u) (other : List String) :
    u.bytes? other = t.bytes? other := by
  rw [makeDirectory] at h
  split at h
  · simp at h
  · simp at h
  · split at h
    · simp at h
    · split at h
      · simp at h
      next hmissing =>
        obtain rfl := Except.ok.inj h
        exact bytes?_put_directory (by simpa using hmissing) other

theorem bytes?_of_ensureDirectory (h : t.ensureDirectory start names = .ok u)
    (other : List String) : u.bytes? other = t.bytes? other := by
  rw [ensureDirectory] at h
  split at h
  next hmake =>
    obtain rfl := Except.ok.inj h
    exact bytes?_of_makeDirectory hmake other
  · split at h
    · obtain rfl := Except.ok.inj h
      rfl
    · simp at h

/-- Directories are created without a change of the files, however far this comes. -/
theorem bytes?_makeAll (t : FileTree) (start reversed other : List String) :
    (t.makeAll start reversed).2.bytes? other = t.bytes? other := by
  -- The induction is on the names from the innermost one outwards, as the directories are tried.
  induction reversed generalizing t with
  | nil => rfl
  | cons name outer ih =>
    rw [makeAll]
    split
    next hensure => exact bytes?_of_ensureDirectory hensure other
    · -- The directory around it is made first.
      have houter := ih t
      split
      next hmake => rwa [hmake] at houter
      next hmake =>
        rw [hmake] at houter
        split
        next hensure => exact (bytes?_of_ensureDirectory hensure other).trans houter
        · exact houter
    · rfl

theorem bytes?_makeParents (path : String) (t : FileTree) (other : List String) :
    (t.makeParents path).2.bytes? other = t.bytes? other := by
  unfold makeParents
  split
  · rfl
  next parent _ =>
    split
    · rfl
    · have hmake : (t.makeDirectories parent).2.bytes? other = t.bytes? other := by
        unfold makeDirectories
        split
        · rfl
        · rfl
        · exact bytes?_makeAll _ _ _ _
      split
      next heq => rwa [heq] at hmake
      next heq => rwa [heq] at hmake

/-- A file that is created has no bytes, and one that is there keeps its bytes. -/
theorem bytes?_of_createFile (h : t.createFile path = .ok (place, u)) :
    u.bytes? place = some ((t.bytes? place).getD []) := by
  rw [createFile] at h
  split at h
  · simp at h
  · split at h
    · simp at h
    · simp at h
    next directory name _ =>
      split at h
      · simp at h
      · split at h
        · simp at h
        · -- The name is free or that of a file; a directory is refused.
          dsimp only at h
          split at h
          · simp at h
          next hfile =>
            obtain ⟨rfl, rfl⟩ := Prod.mk.inj (Except.ok.inj h)
            simp [bytes?, hfile]
          next hmissing =>
            obtain ⟨rfl, rfl⟩ := Prod.mk.inj (Except.ok.inj h)
            simp [bytes?, hmissing, node?_put_concat]

instance : Storage.Transparent FileTree where
  bytes? file t := t.bytes? file.names
  bytes?_isFile file path t := by
    change (FileTree.isFile path t).2.bytes? _ = _
    unfold FileTree.isFile
    split <;> rfl
  bytes?_readAll file path t := rfl

/-- A file is opened when the directories that it lies in have been created. -/
theorem exists_of_openFile {h : Handle} (hopen : t.openFile path = (.ok h, u)) :
    ∃ place, h = ⟨path, ⟨true, place⟩, 0⟩ ∧
      (t.makeParents path).2.createFile path = .ok (place, u) := by
  rw [openFile] at hopen
  split at hopen
  · simp at hopen
  next hparents =>
    split at hopen
    · simp at hopen
    next hcreate =>
      simp only [Prod.mk.injEq, Except.ok.injEq] at hopen
      obtain ⟨rfl, rfl⟩ := hopen
      exact ⟨_, rfl, by rw [hparents, hcreate]⟩

instance : Storage.Readable FileTree where
  isOpened {path h t u} hopen := by
    obtain ⟨place, rfl, hcreate⟩ := exists_of_openFile hopen
    have hbytes := bytes?_of_createFile hcreate
    rw [bytes?_makeParents] at hbytes
    refine ⟨rfl, hbytes, ?_⟩
    intro h' n hfile _
    have hfound : u.bytesOf h' = (t.bytes? place).getD [] := by
      rw [bytesOf, hfile, hbytes, Option.getD_some]
    change FileTree.read h' n u = _
    rw [FileTree.read, hfound]
    rfl

end FileTree
end IntentFirewall
