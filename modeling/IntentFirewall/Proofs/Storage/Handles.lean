import IntentFirewall.Proofs.Storage.FileTree
import IntentFirewall.Proofs.Storage.Memory
import Mathlib.Logic.Function.Basic

/-!
# One file opened several times

A file can be open by any number of handles at the same time. On a disk they behave like those of a
regular file: each has a cursor of its own, a file is given exactly the length it is resized to, and
writing nothing does nothing. A file in memory is the same unless a call reaches beyond its end.

## Main definitions

* `FileMachine`: a file with the calls for it, `FileMachine.views` what is seen of a run of calls.
* `FileMachine.regular`: a regular file. `FileMachine.ofStorage`: the file at a path of a storage.
* `FileCall.overruns`: a call that comes out otherwise on a file in memory.

## Main results

* `FileMachine.Refines.views_eq`: a machine that does in each step what another one does is seen to
  do the same in every run.
* `FileMachine.views_inMemory_iff`: a run in memory is seen to be that of a regular file exactly if
  no call of it overruns.
* `Memory.views_eq_iff`: exactly when a run in memory is that on a disk, which is that of a regular
  file.
-/

namespace IntentFirewall

/-! ## Calls and machines -/

/-- A call for a file. -/
inductive FileCall
  /-- Opens the file. -/
  | openFile
  /-- Reads at most so many bytes. -/
  | read (size : Nat)
  /-- Gives the file a length and moves the cursor to the start. -/
  | truncate (length : Nat)
  /-- Writes bytes. -/
  | write (bytes : List UInt8)
  /-- Gives the handle back. -/
  | close

/-- What a call answers: the bytes that it has read, if it reads any, or an error. There is no
answer without a handle to make the call on. -/
abbrev FileAnswer := Option (Except StorageError (List UInt8))

/-- A file with handles in `η` and states in `σ`. -/
structure FileMachine (η σ : Type) where
  /-- Carries out a call on a handle, if there is one, and gives the handle to go on with. -/
  perform : FileCall → Option η → σ → FileAnswer × Option η × σ
  /-- The bytes of the file. -/
  bytes : σ → Except StorageError (List UInt8)
  /-- Where a handle stands. -/
  cursor : η → Nat

/-- A file and its handles, which have names in `ι`. -/
structure FileDesk (η σ ι : Type) where
  /-- The handles. -/
  handles : ι → Option η
  /-- The state of the file. -/
  state : σ

/-- No handle is open. -/
def FileDesk.closed {η σ ι : Type} (s : σ) : FileDesk η σ ι := ⟨fun _ => none, s⟩

/-- What is seen of a call. -/
structure FileView (ι : Type) where
  /-- The answer. -/
  answer : FileAnswer
  /-- The bytes of the file behind the call. -/
  bytes : Except StorageError (List UInt8)
  /-- Where the handles stand then. -/
  cursors : ι → Option Nat

namespace FileMachine

variable {η σ ι : Type} [DecidableEq ι]

/-- Carries out a call on the handle with a name. -/
def next (M : FileMachine η σ) (c : ι × FileCall) (d : FileDesk η σ ι) :
    FileAnswer × FileDesk η σ ι :=
  let result := M.perform c.2 (d.handles c.1) d.state
  (result.1, ⟨Function.update d.handles c.1 result.2.1, result.2.2⟩)

/-- What is seen of a call, given its answer and what is there then. -/
def view (M : FileMachine η σ) (result : FileAnswer × FileDesk η σ ι) : FileView ι :=
  ⟨result.1, M.bytes result.2.state, fun i => (result.2.handles i).map M.cursor⟩

/-- What is seen of a run of calls. -/
def views (M : FileMachine η σ) : List (ι × FileCall) → FileDesk η σ ι → List (FileView ι)
  | [], _ => []
  | c :: rest, d => M.view (M.next c d) :: M.views rest (M.next c d).2

/-- The file at a path of a storage. -/
def ofStorage (σ : Type) [Storage σ] (path : String) : FileMachine Handle σ where
  perform
    | .openFile, handle?, s =>
      match Storage.openFile path s with
      | (.ok handle, s) => (some (.ok []), some handle, s)
      | (.error e, s) => (some (.error e), handle?, s)
    | _, none, s => (none, none, s)
    | .read size, some handle, s =>
      match Storage.read handle size s with
      | (.ok (bytes, handle), s) => (some (.ok bytes), some handle, s)
      | (.error e, s) => (some (.error e), some handle, s)
    | .truncate length, some handle, s =>
      match Storage.truncate handle length s with
      | (.ok handle, s) => (some (.ok []), some handle, s)
      | (.error e, s) => (some (.error e), some handle, s)
    | .write bytes, some handle, s =>
      match Storage.write handle bytes s with
      | (.ok handle, s) => (some (.ok []), some handle, s)
      | (.error e, s) => (some (.error e), some handle, s)
    | .close, some handle, s =>
      match Storage.close handle s with
      | (.ok (), s) => (some (.ok []), none, s)
      | (.error e, s) => (some (.error e), none, s)
  bytes s := (Storage.readAll path s).1
  cursor := Handle.cursor

/-- A regular file by its bytes, and handles by their cursors. A read leaves a cursor behind the end
where it is; a file is resized to exactly the length asked for, unless no file can have it; writing
fills a gap with zeros, and without bytes nothing is written. -/
def regular (path : String) : FileMachine Nat (List UInt8) where
  perform
    | .openFile, _, file => (some (.ok []), some 0, file)
    | _, none, file => (none, none, file)
    | .read size, some cursor, file =>
      let piece := (file.drop cursor).take size
      (some (.ok piece), some (cursor + piece.length), file)
    | .truncate length, some cursor, file =>
      if FileTree.sizeLimit < length then
        (some (.error (.io path .sizeTooLarge)), some cursor, file)
      else (some (.ok []), some 0, Bytes.resize length file)
    | .write bytes, some cursor, file =>
      if bytes = [] then (some (.ok []), some cursor, file)
      else (some (.ok []), some (cursor + bytes.length), Bytes.overwrite cursor bytes file)
    | .close, some _, file => (some (.ok []), none, file)
  bytes := .ok
  cursor cursor := cursor

/-- A file in memory by its bytes, and handles by their cursors. -/
def inMemory : FileMachine Nat (List UInt8) where
  perform
    | .openFile, _, file => (some (.ok []), some 0, file)
    | _, none, file => (none, none, file)
    | .read size, some cursor, file =>
      let start := min cursor file.length
      let piece := (file.drop start).take size
      (some (.ok piece), some (start + piece.length), file)
    | .truncate length, some _, file => (some (.ok []), some 0, file.take length)
    | .write bytes, some cursor, file =>
      (some (.ok []), some (cursor + bytes.length), Bytes.overwrite cursor bytes file)
    | .close, some _, file => (some (.ok []), none, file)
  bytes := .ok
  cursor cursor := cursor

end FileMachine

/-! ## Calls that reach beyond the end -/

/-- Whether a call on a handle reaches beyond the end of a file: a read or a write of nothing behind
it, or a length that the file, or any file, does not have. -/
def FileCall.overruns : FileCall → Option Nat → List UInt8 → Bool
  | .read _, some cursor, file => file.length < cursor
  | .truncate length, some _, file => file.length < length || FileTree.sizeLimit < length
  | .write [], some cursor, file => file.length < cursor
  | _, _, _ => false

namespace FileMachine

variable {η σ ι : Type} {path : String} {c : FileCall} {cursor? : Option Nat} {file : List UInt8}

/-- A call in memory comes out as that of a regular file exactly if it does not overrun. -/
theorem perform_inMemory_iff (path : String) :
    inMemory.perform c cursor? file = (regular path).perform c cursor? file ↔
      c.overruns cursor? file = false := by
  cases c with
  | openFile => simp [inMemory, regular, FileCall.overruns]
  | close => cases cursor? <;> simp [inMemory, regular, FileCall.overruns]
  | read size =>
    cases cursor? with
    | none => simp [inMemory, regular, FileCall.overruns]
    | some cursor =>
      by_cases hend : cursor ≤ file.length
      · simp [inMemory, regular, FileCall.overruns, hend]
      · -- Nothing is read in either case, but in memory the cursor moves to the end.
        have hlt : file.length < cursor := Nat.lt_of_not_le hend
        have hle : file.length ≤ cursor := Nat.le_of_lt hlt
        have hne : file.length ≠ cursor + min size (file.length - cursor) := by omega
        simp [inMemory, regular, FileCall.overruns, Nat.min_eq_right hle, hlt,
          List.drop_eq_nil_of_le hle, hne]
  | truncate length =>
    cases cursor? with
    | none => simp [inMemory, regular, FileCall.overruns]
    | some cursor =>
      by_cases hlimit : FileTree.sizeLimit < length
      · simp [inMemory, regular, FileCall.overruns, hlimit]
      by_cases hend : length ≤ file.length
      · simp [inMemory, regular, FileCall.overruns, hlimit, hend, Bytes.resize_of_le hend]
      · -- A file that is resized is longer than one that is cut.
        have hne : file.take length ≠ Bytes.resize length file := by
          intro heq
          have hlength := congrArg List.length heq
          rw [Bytes.length_resize, List.length_take] at hlength
          omega
        simp [inMemory, regular, FileCall.overruns, hlimit, hne, Nat.lt_of_not_le hend]
  | write bytes =>
    cases cursor? with
    | none => cases bytes <;> simp [inMemory, regular, FileCall.overruns]
    | some cursor =>
      cases bytes with
      | cons b bytes => simp [inMemory, regular, FileCall.overruns]
      | nil =>
        by_cases hend : cursor ≤ file.length
        · simp [inMemory, regular, FileCall.overruns, Bytes.overwrite_nil_of_le hend, hend]
        · have hne : Bytes.overwrite cursor [] file ≠ file := by
            intro heq
            have hlength := Bytes.le_length_overwrite cursor [] file
            rw [heq] at hlength
            exact hend hlength
          simp [inMemory, regular, FileCall.overruns, hne, Nat.lt_of_not_le hend]

/-! ## Runs -/

variable [DecidableEq ι] {d : FileDesk Nat (List UInt8) ι} {calls : List (ι × FileCall)}

/-- Whether no call of a run for a regular file overruns. -/
def isContained (path : String) : List (ι × FileCall) → FileDesk Nat (List UInt8) ι → Bool
  | [], _ => true
  | c :: rest, d =>
    !c.2.overruns (d.handles c.1) d.state && isContained path rest ((regular path).next c d).2

/-- A call on a file in memory is seen to be one for a regular file exactly if it does not
overrun. -/
theorem view_inMemory_iff (path : String) {c : ι × FileCall} :
    inMemory.view (inMemory.next c d) = (regular path).view ((regular path).next c d) ↔
      c.2.overruns (d.handles c.1) d.state = false := by
  rw [← perform_inMemory_iff path]
  constructor
  · intro h
    -- The other handles stay where they are, so that the cursor of this one tells all cursors.
    simp only [view, next, FileView.mk.injEq] at h
    obtain ⟨hanswer, hbytes, hcursors⟩ := h
    have hcursor := congrFun hcursors c.1
    simp only [Function.update_self] at hcursor
    exact Prod.ext hanswer (Prod.ext (by simpa [inMemory, regular] using hcursor)
      (Except.ok.inj hbytes))
  · intro h
    simp only [view, next, h]
    rfl

/-- A run on a file in memory is seen to be one for a regular file exactly if no call overruns. -/
theorem views_inMemory_iff :
    inMemory.views calls d = (regular path).views calls d ↔ isContained path calls d = true := by
  induction calls generalizing d with
  | nil => simp [views, isContained]
  | cons c rest ih =>
    rw [views, views, List.cons.injEq, view_inMemory_iff, isContained, Bool.and_eq_true,
      Bool.not_eq_true']
    refine and_congr_right fun hcall => ?_
    -- As long as no call overruns, both files are in the same state.
    have hnext : inMemory.next c d = (regular path).next c d := by
      rw [next, (perform_inMemory_iff path).2 hcall, next]
    rw [hnext]
    exact ih

/-! ## Refinement -/

/-- A machine does in each step what another one does, which works on the bytes of the file and the
cursors of the handles. -/
structure Refines (M : FileMachine η σ) (N : FileMachine Nat (List UInt8)) (handle : Nat → η)
    (Holds : List UInt8 → σ → Prop) : Prop where
  /-- The bytes are the same. -/
  bytes_eq : ∀ {file s}, Holds file s → M.bytes s = N.bytes file
  /-- The cursors are the same. -/
  cursor_eq : ∀ cursor, M.cursor (handle cursor) = N.cursor cursor
  /-- The answers are the same, and so are the bytes and cursors behind a call. -/
  perform_eq : ∀ {file s} (c : FileCall) (cursor? : Option Nat), Holds file s →
    ∃ s', M.perform c (cursor?.map handle) s =
      ((N.perform c cursor? file).1, (N.perform c cursor? file).2.1.map handle, s') ∧
        Holds (N.perform c cursor? file).2.2 s'

namespace Refines

variable {M : FileMachine η σ} {N : FileMachine Nat (List UInt8)} {handle : Nat → η}
  {Holds : List UInt8 → σ → Prop} {s s' : σ}

/-- A first call that comes out the same is seen to be the same, and so is the run behind it. -/
theorem views_cons (h : Refines M N handle Holds) (c : ι × FileCall) (cursors : ι → Option Nat)
    {rest : List (ι × FileCall)}
    (hfirst : M.perform c.2 ((cursors c.1).map handle) s =
      ((N.perform c.2 (cursors c.1) file).1, (N.perform c.2 (cursors c.1) file).2.1.map handle, s'))
    (hholds : Holds (N.perform c.2 (cursors c.1) file).2.2 s')
    (hrest : ∀ {file s} {cursors : ι → Option Nat}, Holds file s →
      M.views rest ⟨fun i => (cursors i).map handle, s⟩ = N.views rest ⟨cursors, file⟩) :
    M.views (c :: rest) ⟨fun i => (cursors i).map handle, s⟩ =
      N.views (c :: rest) ⟨cursors, file⟩ := by
  have hnext : M.next c ⟨fun i => (cursors i).map handle, s⟩ =
      ((N.next c ⟨cursors, file⟩).1,
        ⟨fun i => ((N.next c ⟨cursors, file⟩).2.handles i).map handle, s'⟩) := by
    rw [next, hfirst]
    refine Prod.ext rfl (congrArg (FileDesk.mk · s') ?_)
    exact (Function.comp_update (Option.map handle) cursors c.1 _).symm
  have hcursors : M.cursor ∘ handle = N.cursor := funext h.cursor_eq
  rw [views, views, hnext, hrest hholds]
  simp only [view, h.bytes_eq hholds, Option.map_map, hcursors]
  rfl

/-- Every run is seen to be the same. -/
theorem views_eq (h : Refines M N handle Holds) {cursors : ι → Option Nat} (hs : Holds file s)
    (calls : List (ι × FileCall)) :
    M.views calls ⟨fun i => (cursors i).map handle, s⟩ = N.views calls ⟨cursors, file⟩ := by
  induction calls generalizing file s cursors with
  | nil => rfl
  | cons c rest ih =>
    obtain ⟨s', hperform, hholds⟩ := h.perform_eq c.2 (cursors c.1) hs
    exact h.views_cons c cursors hperform hholds ih

end Refines

end FileMachine

/-! ## The operations on an open file -/

namespace Memory

variable {m : Memory} {place : Path} {file : List UInt8}

theorem opened_of_contents (hfile : m.contents? place = some file) : m.opened place = m := by
  simp [opened, hfile]

theorem readAll_of_contents {path : String} (hdenied : m.denied = false)
    (hfile : m.contents? (.ofText path) = some file) : Storage.readAll path m = (.ok file, m) := by
  change Memory.readAll path m = _
  simp [Memory.readAll, hdenied, hfile]

theorem read_of_contents (hdenied : m.denied = false) (hfile : m.contents? place = some file)
    (path : String) (cursor size : Nat) :
    Storage.read ⟨path, place, cursor⟩ size m =
      (.ok ((file.drop (min cursor file.length)).take size, ⟨path, place,
        min cursor file.length + ((file.drop (min cursor file.length)).take size).length⟩), m) := by
  change Memory.read _ size m = _
  simp [Memory.read, hdenied, hfile]

theorem truncate_of_contents (hwritable : m.isWritable = true)
    (hfile : m.contents? place = some file) (path : String) (cursor length : Nat) :
    Storage.truncate ⟨path, place, cursor⟩ length m =
      (.ok ⟨path, place, 0⟩, m.put place (file.take length)) := by
  change Memory.truncate _ length m = _
  simp [Memory.truncate, hwritable, hfile]

theorem write_of_contents (hwritable : m.isWritable = true)
    (hfile : m.contents? place = some file) (path : String) (cursor : Nat)
    (bytes : List UInt8) :
    Storage.write ⟨path, place, cursor⟩ bytes m =
      (.ok ⟨path, place, cursor + bytes.length⟩,
        m.rewritten place (Bytes.overwrite cursor bytes file)) := by
  change Memory.write _ bytes m = _
  simp [Memory.write, hwritable, hfile, rewritten]

end Memory

namespace FileTree

variable {t : FileTree} {place : List String} {file : List UInt8}

theorem bytesOf_of_node (hfile : t.node? place = some (.file file)) (path : String)
    (cursor : Nat) :
    bytesOf ⟨path, ⟨true, place⟩, cursor⟩ t = file := by
  simp [bytesOf, bytes?, hfile]

theorem read_of_node (hfile : t.node? place = some (.file file)) (path : String)
    (cursor size : Nat) :
    Storage.read ⟨path, ⟨true, place⟩, cursor⟩ size t =
      (.ok ((file.drop cursor).take size,
        ⟨path, ⟨true, place⟩, cursor + ((file.drop cursor).take size).length⟩), t) := by
  change FileTree.read _ size t = _
  simp [FileTree.read, bytesOf_of_node hfile]

theorem truncate_of_node (hfile : t.node? place = some (.file file)) (path : String)
    (cursor length : Nat) :
    Storage.truncate ⟨path, ⟨true, place⟩, cursor⟩ length t =
      if sizeLimit < length then (.error (.io path .sizeTooLarge), t)
      else (.ok ⟨path, ⟨true, place⟩, 0⟩, t.put place (.file (Bytes.resize length file))) := by
  change FileTree.truncate _ length t = _
  rw [FileTree.truncate, bytesOf_of_node hfile]
  rfl

theorem write_of_node (hfile : t.node? place = some (.file file)) (path : String) (cursor : Nat)
    (bytes : List UInt8) :
    Storage.write ⟨path, ⟨true, place⟩, cursor⟩ bytes t =
      if bytes = [] then (.ok ⟨path, ⟨true, place⟩, cursor⟩, t)
      else (.ok ⟨path, ⟨true, place⟩, cursor + bytes.length⟩,
        t.put place (.file (Bytes.overwrite cursor bytes file))) := by
  change FileTree.write _ bytes t = _
  rw [FileTree.write, bytesOf_of_node hfile]

end FileTree

/-! ## Storages as machines -/

namespace FileMachine

variable {path : String}

/-- The file at a path in a memory that allows changes. -/
theorem refines_memory (path : String) :
    Refines (ofStorage Memory path) inMemory (⟨path, .ofText path, ·⟩) fun file m =>
      m.isWritable = true ∧ m.contents? (.ofText path) = some file where
  bytes_eq h := congrArg Prod.fst (Memory.readAll_of_contents (Memory.isWritable_iff.1 h.1).1 h.2)
  cursor_eq _ := rfl
  perform_eq {file m} c cursor? h := by
    obtain ⟨hwritable, hfile⟩ := h
    have hdenied := (Memory.isWritable_iff.1 hwritable).1
    have hput (bytes : List UInt8) := m.contents?_put_self (.ofText path) bytes
    cases c with
    | openFile =>
      have hopen := Memory.openFile_eq hwritable path
      rw [Memory.opened_of_contents hfile] at hopen
      exact ⟨m, by simp [ofStorage, inMemory, hopen], hwritable, hfile⟩
    | read size =>
      cases cursor? with
      | none => exact ⟨m, rfl, hwritable, hfile⟩
      | some cursor =>
        have hread := Memory.read_of_contents hdenied hfile path cursor size
        exact ⟨m, by simp [ofStorage, inMemory, hread], hwritable, hfile⟩
    | truncate length =>
      cases cursor? with
      | none => exact ⟨m, rfl, hwritable, hfile⟩
      | some cursor =>
        have htruncate := Memory.truncate_of_contents hwritable hfile path cursor length
        exact ⟨m.put _ _, by simp [ofStorage, inMemory, htruncate], hwritable, hput _⟩
    | write bytes =>
      cases cursor? with
      | none => exact ⟨m, rfl, hwritable, hfile⟩
      | some cursor =>
        have hwrite := Memory.write_of_contents hwritable hfile path cursor bytes
        exact ⟨m.rewritten _ _, by simp [ofStorage, inMemory, hwrite], hwritable, hput _⟩
    | close => cases cursor? <;> exact ⟨m, rfl, hwritable, hfile⟩

/-- The file that a path leads to on a disk. -/
theorem refines_fileTree {t : FileTree} {place : List String} (h : t.LeadsTo path place) :
    Refines (ofStorage FileTree path) (regular path) (⟨path, ⟨true, place⟩, ·⟩) fun file u =>
      t.Extends u ∧ u.node? place = some (.file file) where
  bytes_eq {file u} hu := congrArg Prod.fst (h hu.1 hu.2).2
  cursor_eq _ := rfl
  perform_eq {file u} c cursor? hu := by
    obtain ⟨hextends, hfile⟩ := hu
    have hput (bytes : List UInt8) : t.Extends (u.put place (.file bytes)) ∧
        (u.put place (.file bytes)).node? place = some (.file bytes) := by
      have hne : place ≠ [] := fun hroot => by simp [hroot, FileTree.node?_root] at hfile
      exact ⟨hextends.trans (.put_of_file hfile bytes), FileTree.node?_put_self hne u _⟩
    cases c with
    | openFile =>
      have hopen : Storage.openFile path u = (.ok ⟨path, ⟨true, place⟩, 0⟩, u) :=
        (h hextends hfile).1
      exact ⟨u, by simp [ofStorage, regular, hopen], hextends, hfile⟩
    | read size =>
      cases cursor? with
      | none => exact ⟨u, rfl, hextends, hfile⟩
      | some cursor =>
        have hread := FileTree.read_of_node hfile path cursor size
        exact ⟨u, by simp [ofStorage, regular, hread], hextends, hfile⟩
    | truncate length =>
      cases cursor? with
      | none => exact ⟨u, rfl, hextends, hfile⟩
      | some cursor =>
        have htruncate := FileTree.truncate_of_node hfile path cursor length
        by_cases hlimit : FileTree.sizeLimit < length
        · simp only [ofStorage, regular, Option.map_some, htruncate, if_pos hlimit]
          exact ⟨u, rfl, hextends, hfile⟩
        · simp only [ofStorage, regular, Option.map_some, htruncate, if_neg hlimit]
          exact ⟨_, rfl, hput _⟩
    | write bytes =>
      cases cursor? with
      | none => exact ⟨u, rfl, hextends, hfile⟩
      | some cursor =>
        have hwrite := FileTree.write_of_node hfile path cursor bytes
        by_cases hempty : bytes = []
        · simp only [ofStorage, regular, Option.map_some, hwrite, if_pos hempty]
          exact ⟨u, rfl, hextends, hfile⟩
        · simp only [ofStorage, regular, Option.map_some, hwrite, if_neg hempty]
          exact ⟨_, rfl, hput _⟩
    | close => cases cursor? <;> exact ⟨u, rfl, hextends, hfile⟩

variable {η σ ι : Type} [DecidableEq ι] {M : FileMachine η σ} {N : FileMachine Nat (List UInt8)}
  {handle : Nat → η} {Holds : List UInt8 → σ → Prop} {s s' : σ} {file : List UInt8}

/-- A run that opens the file first is seen to be the same, even if the file is created then. -/
theorem Refines.views_openFile (h : Refines M N handle Holds) (i : ι)
    (hopen : M.perform .openFile none s = (some (.ok []), some (handle 0), s'))
    (hregular : N.perform .openFile none file = (some (.ok []), some 0, file))
    (hholds : Holds file s') (calls : List (ι × FileCall)) :
    M.views ((i, .openFile) :: calls) (.closed s) =
      N.views ((i, .openFile) :: calls) (.closed file) := by
  have hfirst : M.perform .openFile none s = ((N.perform .openFile none file).1,
      (N.perform .openFile none file).2.1.map handle, s') := by
    rw [hopen, hregular]
    rfl
  have hfile : Holds (N.perform .openFile none file).2.2 s' := by rwa [hregular]
  exact h.views_cons (i, .openFile) (fun _ => none) hfirst hfile fun hs => h.views_eq hs calls

end FileMachine

open FileMachine

/-- The handles of a file on a disk are seen to be those of a regular file in every run of calls. A
run in memory that starts from the same bytes is seen to be the same exactly if no call overruns. -/
theorem Memory.views_eq_iff {ι : Type} [DecidableEq ι] {m : Memory} {t u : FileTree}
    {path : String} {handle : Handle} (hwritable : m.isWritable = true) (hrooted : t.IsRooted)
    (hopen : Storage.openFile path t = (.ok handle, u))
    (hsame : (Storage.readAll path (Storage.openFile path m).2).1 = (Storage.readAll path u).1)
    (i : ι) (calls : List (ι × FileCall)) :
    ∃ file, (Storage.readAll path u).1 = .ok file ∧
      (ofStorage FileTree path).views ((i, .openFile) :: calls) (.closed t) =
        (regular path).views ((i, .openFile) :: calls) (.closed file) ∧
      ((ofStorage Memory path).views ((i, .openFile) :: calls) (.closed m) =
          (ofStorage FileTree path).views ((i, .openFile) :: calls) (.closed t) ↔
        isContained path ((i, .openFile) :: calls) (.closed file) = true) := by
  obtain ⟨place, file, rfl, hfile, hleads⟩ := FileTree.leadsTo_of_openFile hrooted hopen
  have hread : Storage.readAll path u = (.ok file, u) := (hleads (.refl u) hfile).2
  have hlocal := (refines_fileTree hleads).views_openFile (s := t) i (by simp [ofStorage, hopen])
    rfl ⟨.refl u, hfile⟩ calls
  -- In memory the file is there as well once it has been opened.
  have hopened : (m.opened (.ofText path)).isWritable = true := by
    rw [m.isWritable_opened, hwritable]
  have hcontents := m.contents?_opened (.ofText path)
  have hbytes : m.bytesAt (.ofText path) = file := by
    rw [openFile_eq hwritable, hread,
      readAll_of_contents (isWritable_iff.1 hopened).1 hcontents] at hsame
    exact Except.ok.inj hsame
  rw [hbytes] at hcontents
  have hmemory := (refines_memory path).views_openFile (s := m) i
    (by simp [ofStorage, openFile_eq hwritable]) rfl ⟨hopened, hcontents⟩ calls
  refine ⟨file, congrArg Prod.fst hread, hlocal, ?_⟩
  rw [hlocal, hmemory]
  exact views_inMemory_iff

/-- A new file, which a second handle cuts while the cursor of the first one is behind the end. -/
theorem Memory.views_eq_iff_gap :
    let calls : List (Bool × FileCall) := [(false, .write [97, 98, 99]), (true, .openFile),
      (true, .read 2), (true, .truncate 1), (false, .write [100]), (true, .read 9)]
    let t := FileTree.ofHome ["work"]
    ∃ handle u, Storage.openFile "ifw/a.xml" t = (.ok handle, u) ∧
      (Storage.readAll "ifw/a.xml" u).1 = .ok [] ∧
      (ofStorage Memory "ifw/a.xml").views ((false, .openFile) :: calls) (.closed .empty) =
        (ofStorage FileTree "ifw/a.xml").views ((false, .openFile) :: calls) (.closed t) := by
  intro calls t
  have hopen : Storage.openFile "ifw/a.xml" t =
      (.ok ⟨"ifw/a.xml", ⟨true, ["work", "ifw", "a.xml"]⟩, 0⟩,
        (t.put ["work", "ifw"] .directory).put ["work", "ifw", "a.xml"] (.file [])) := rfl
  refine ⟨_, _, hopen, by rfl, ?_⟩
  obtain ⟨file, hfile, -, hviews⟩ := views_eq_iff (m := .empty) (by decide)
    (FileTree.isRooted_ofHome ["work"]) hopen (by rfl) false calls
  obtain rfl : [] = file := Except.ok.inj (.trans (by rfl) hfile)
  exact hviews.2 (by decide)

/-- A file in memory that is given a greater length stays as it is. -/
theorem Memory.views_ne :
    let calls : List (Unit × FileCall) :=
      [((), .openFile), ((), .write [97, 98]), ((), .truncate 5)]
    ((ofStorage Memory "/data/a.xml").views calls (.closed .empty)).map
        (fun v => (v.answer, v.bytes)) =
      [(some (.ok []), .ok []), (some (.ok []), .ok [97, 98]), (some (.ok []), .ok [97, 98])] ∧
    ((ofStorage FileTree "/data/a.xml").views calls (.closed (.ofHome []))).map
        (fun v => (v.answer, v.bytes)) =
      [(some (.ok []), .ok []), (some (.ok []), .ok [97, 98]),
        (some (.ok []), .ok [97, 98, 0, 0, 0])] :=
  ⟨rfl, rfl⟩

end IntentFirewall
