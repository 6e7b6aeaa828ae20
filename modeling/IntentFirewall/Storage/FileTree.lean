import IntentFirewall.Storage.Basic
import IntentFirewall.Storage.Bytes
import IntentFirewall.Storage.Table
import IntentFirewall.Text.Utf8

/-!
# Storage on a disk

A tree of directories and files in which paths are walked name by name, with a working directory
from which relative paths start.

## Main definitions

* `FileTree.walk`: where a path leads, and the error of the name at which it goes nowhere.
* `FileTree.makeDirectories`: creates a directory and all that are missing on the way to it.
* The instance of `Storage`: opening a file first creates the directories it lies in.
-/

namespace IntentFirewall

/-- What a name in a directory stands for. -/
inductive Entry
  /-- A directory. -/
  | directory
  /-- A file with its bytes. -/
  | file (bytes : List UInt8)
  deriving DecidableEq, Repr

/-- A tree of directories and files. Places are lists of names from the root, which is always a
directory. -/
structure FileTree where
  /-- The entries, each place once. -/
  entries : Table (List String) Entry
  /-- The place of the working directory. -/
  home : List String
  deriving DecidableEq, Repr

namespace FileTree

/-- A tree that consists of a working directory. -/
def ofHome (home : List String) : FileTree :=
  ⟨(List.range (home.length + 1)).map (fun n => (home.take n, .directory)), home⟩

/-- What is at a place. -/
def node? (t : FileTree) (place : List String) : Option Entry :=
  if place = [] then some .directory else t.entries.lookup place

/-- The tree with an entry at a place. -/
def put (t : FileTree) (place : List String) (e : Entry) : FileTree :=
  { t with entries := Table.put place e t.entries }

/-- What has been put at a place is there. The root cannot be changed. -/
theorem node?_put_self {place : List String} (h : place ≠ []) (t : FileTree) (e : Entry) :
    (t.put place e).node? place = some e := by
  simp [node?, put, h]

theorem node?_put_of_ne {place other : List String} (h : other ≠ place) (t : FileTree)
    (e : Entry) : (t.put place e).node? other = t.node? other := by
  simp only [node?, put, Table.lookup_put_of_ne h]

/-- The bytes of the file at a place, if there is one. -/
def bytes? (t : FileTree) (place : List String) : Option (List UInt8) :=
  match t.node? place with
  | some (.file bytes) => some bytes
  | _ => none

/-! ## Walking -/

/-- The number of bytes that a name may have. -/
def nameLimit : Nat := 255

/-- The number of bytes that a path may have. -/
def pathLimit : Nat := 4095

/-- The number of bytes that a file may have. -/
def sizeLimit : Nat := Nat.pow 2 63 - 1

/-- The place of a name in a directory. The name has to be there. -/
def step (t : FileTree) (directory : List String) (name : String) :
    Except FileError (List String) :=
  match t.node? directory with
  | none => .error .notFound
  | some (.file _) => .error .notDirectory
  | some .directory =>
    if name = "." then .ok directory
    else if name = ".." then .ok directory.dropLast
    else if nameLimit < Utf8.size name.toList then .error .nameTooLong
    else
      match t.node? (directory ++ [name]) with
      | none => .error .notFound
      | some _ => .ok (directory ++ [name])

/-- The place where names lead, from a place on. -/
def walk (t : FileTree) : List String → List String → Except FileError (List String)
  | place, [] => .ok place
  | place, name :: rest =>
    match t.step place name with
    | .error e => .error e
    | .ok next => t.walk next rest

/-- The place from which a path starts. -/
def origin (t : FileTree) (path : String) : List String :=
  if Path.isAbsolute path then [] else t.home

/-- The names in a path, dots included. -/
def namesOf (path : String) : List String := (Text.splitAt '/' path).filter (· != "")

/-- What is wrong with a path before anything is looked up. -/
def pathFault? (path : String) : Option FileError :=
  if path.toList.any (fun c => c.toNat == 0) then some .nulInPath
  else if path = "" then some .notFound
  else if pathLimit < Utf8.size path.toList then some .nameTooLong
  else none

/-- The place that a path leads to. A slash at the end asks for a directory. -/
def resolve (t : FileTree) (path : String) : Except FileError (List String) :=
  match pathFault? path with
  | some e => .error e
  | none =>
    match t.walk (t.origin path) (namesOf path) with
    | .error e => .error e
    | .ok place =>
      if Path.endsInSlash path && (t.bytes? place).isSome then .error .notDirectory
      else .ok place

/-! ## Looking -/

/-- Whether a path leads to a directory. -/
def isDirectory (path : String) (t : FileTree) : Bool :=
  match t.resolve path with
  | .ok place => (t.bytes? place).isNone
  | .error _ => false

/-- The bytes of the file that a path leads to. -/
def readBytes (path : String) (t : FileTree) : Except FileError (List UInt8) :=
  match t.resolve path with
  | .error e => .error e
  | .ok place =>
    match t.bytes? place with
    | some bytes => .ok bytes
    | none => .error .isDirectory

/-- The text of the file that a path leads to. -/
def readText (path : String) (t : FileTree) : Except FileError String :=
  match t.readBytes path with
  | .error e => .error e
  | .ok bytes =>
    match Utf8.decodeString bytes with
    | .ok text => .ok text
    | .error _ => .error .notText

/-! ## Creating -/

/-- The place of a new entry: the directory in which it will lie, and its name. Where a path ends
in dots or in no name at all, there is nothing new. -/
def newPlace (t : FileTree) (start names : List String) :
    Except FileError (Option (List String × String)) :=
  match names.getLast? with
  | none => .ok none
  | some name =>
    match t.walk start names.dropLast with
    | .error e => .error e
    | .ok directory =>
      if (t.bytes? directory).isSome then .error .notDirectory
      else if name = "." ∨ name = ".." then .ok none
      else .ok (some (directory, name))

/-- Creates one directory. -/
def makeDirectory (t : FileTree) (start names : List String) : Except FileError FileTree :=
  match t.newPlace start names with
  | .error e => .error e
  | .ok none => .error .alreadyExists
  | .ok (some (directory, name)) =>
    if nameLimit < Utf8.size name.toList then .error .nameTooLong
    else if (t.node? (directory ++ [name])).isSome then .error .alreadyExists
    else .ok (t.put (directory ++ [name]) .directory)

/-- Whether names lead to a directory. -/
def leadsToDirectory (t : FileTree) (start names : List String) : Bool :=
  match t.walk start names with
  | .ok place => (t.bytes? place).isNone
  | .error _ => false

/-- Creates one directory unless it is there. -/
def ensureDirectory (t : FileTree) (start names : List String) : Except FileError FileTree :=
  match t.makeDirectory start names with
  | .ok t => .ok t
  | .error e => if t.leadsToDirectory start names then .ok t else .error e

/-- Creates the directory to which names lead, given them in reverse order, and those on the way
that are missing. What was created stays if a later one cannot be. -/
def makeAll (t : FileTree) (start : List String) :
    List String → Option FileError × FileTree
  | [] => (none, t)
  | name :: outer =>
    let names := (name :: outer).reverse
    match t.ensureDirectory start names with
    | .ok t => (none, t)
    | .error .notFound =>
      -- The directory around it is made first, then this one is tried once more.
      match t.makeAll start outer with
      | (some e, t) => (some e, t)
      | (none, t) =>
        match t.ensureDirectory start names with
        | .ok t => (none, t)
        | .error e => (some e, t)
    | .error e => (some e, t)

/-- Creates a directory and all that are missing on the way to it. -/
def makeDirectories (path : String) (t : FileTree) : Option FileError × FileTree :=
  match pathFault? path with
  | some .nulInPath => (some .nulInPath, t)
  | some .nameTooLong => (some .nameTooLong, t)
  | _ => t.makeAll (t.origin path) (Path.ofText path).names.reverse

/-- The place of the file at a path, which is created if it is missing. -/
def createFile (path : String) (t : FileTree) : Except FileError (List String × FileTree) :=
  match pathFault? path with
  | some e => .error e
  | none =>
    match t.newPlace (t.origin path) (namesOf path) with
    | .error e => .error e
    | .ok none => .error .isDirectory
    | .ok (some (directory, name)) =>
      if Path.endsInSlash path then .error .isDirectory
      else if nameLimit < Utf8.size name.toList then .error .nameTooLong
      else
        let place := directory ++ [name]
        match t.node? place with
        | some .directory => .error .isDirectory
        | some (.file _) => .ok (place, t)
        | none => .ok (place, t.put place (.file []))

/-! ## The operations of a storage -/

/-- Whether there is a file at a path. A path that leads nowhere leads to no file. -/
def isFile (path : String) (t : FileTree) : Except StorageError Bool × FileTree :=
  match t.resolve path with
  | .ok place => (.ok (t.bytes? place).isSome, t)
  | .error .notFound => (.ok false, t)
  | .error e => (.error (.ofFile path e), t)

/-- The bytes of the file at a path. -/
def readAll (path : String) (t : FileTree) : Except StorageError (List UInt8) × FileTree :=
  ((t.readBytes path).mapError (.ofFile path), t)

/-- Creates the directories that a file at a path lies in. -/
def makeParents (path : String) (t : FileTree) : Except StorageError Unit × FileTree :=
  match Path.parent? path with
  | none => (.ok (), t)
  | some parent =>
    if parent = "" then (.ok (), t)
    else
      match t.makeDirectories parent with
      | (none, t) => (.ok (), t)
      | (some e, t) => (.error (.ofFile parent e), t)

/-- Opens the file at a path. It is created if it is missing, with the directories it lies in. -/
def openFile (path : String) (t : FileTree) : Except StorageError Handle × FileTree :=
  match t.makeParents path with
  | (.error e, t) => (.error e, t)
  | (.ok (), t) =>
    match t.createFile path with
    | .error e => (.error (.ofFile path e), t)
    | .ok (place, t) => (.ok ⟨path, ⟨true, place⟩, 0⟩, t)

/-- The bytes of an open file. -/
def bytesOf (h : Handle) (t : FileTree) : List UInt8 := (t.bytes? h.file.names).getD []

/-- Reads at most `n` bytes. -/
def read (h : Handle) (n : Nat) (t : FileTree) :
    Except StorageError (List UInt8 × Handle) × FileTree :=
  let piece := ((t.bytesOf h).drop h.cursor).take n
  (.ok (piece, { h with cursor := h.cursor + piece.length }), t)

/-- Gives a file exactly the given length and moves the cursor to the start. -/
def truncate (h : Handle) (length : Nat) (t : FileTree) :
    Except StorageError Handle × FileTree :=
  if sizeLimit < length then (.error (.ofFile h.path .sizeTooLarge), t)
  else
    (.ok { h with cursor := 0 },
      t.put h.file.names (.file (Bytes.resize length (t.bytesOf h))))

/-- Writes bytes from the cursor on. Without bytes nothing happens. -/
def write (h : Handle) (bytes : List UInt8) (t : FileTree) :
    Except StorageError Handle × FileTree :=
  if bytes = [] then (.ok h, t)
  else
    (.ok { h with cursor := h.cursor + bytes.length },
      t.put h.file.names (.file (Bytes.overwrite h.cursor bytes (t.bytesOf h))))

/-- Closing always succeeds. -/
def close (_ : Handle) (t : FileTree) : Except StorageError Unit × FileTree := (.ok (), t)

/-- The number of bytes behind the cursor. -/
def remaining (h : Handle) (t : FileTree) : Nat := (t.bytesOf h).length - h.cursor

theorem remaining_of_read {h h' : Handle} {n : Nat} {t t' : FileTree} {bytes : List UInt8}
    (hread : read h n t = (.ok (bytes, h'), t')) (hbytes : bytes ≠ []) :
    remaining h' t' < remaining h t := by
  simp only [read, Prod.mk.injEq, Except.ok.injEq] at hread
  obtain ⟨⟨rfl, rfl⟩, rfl⟩ := hread
  have hlength := List.length_pos_iff.2 hbytes
  simp only [List.length_take, List.length_drop] at hlength
  simp only [remaining, bytesOf, List.length_take, List.length_drop]
  simp only [bytesOf] at hlength
  omega

instance : Storage FileTree where
  isFile := isFile
  readAll := readAll
  openFile := openFile
  read := read
  truncate := truncate
  write := write
  close := close
  remaining := remaining
  remaining_of_read := remaining_of_read

/-! ## Filling and listing -/

/-- Adds a file at a path below the working directory, and the directories it lies in. -/
def addFile (path : String) (bytes : List UInt8) (t : FileTree) : FileTree :=
  match t.openFile path with
  | (.ok h, t) => t.put h.file.names (.file bytes)
  | (.error _, t) => t

/-- Adds a directory at a path below the working directory, and those it lies in. -/
def addDirectory (path : String) (t : FileTree) : FileTree := (t.makeDirectories path).2

/-- The name of a place below a directory, if it lies there. -/
def nameBelow? (directory place : List String) : Option String :=
  if directory.isPrefixOf place && directory.length < place.length then
    some (Path.ofPieces (place.drop directory.length))
  else none

/-- The files below the working directory by their relative paths. -/
def homeFiles (t : FileTree) : List (String × List UInt8) :=
  t.entries.filterMap fun
    | (place, .file bytes) => (nameBelow? t.home place).map (·, bytes)
    | (_, .directory) => none

end FileTree
end IntentFirewall
