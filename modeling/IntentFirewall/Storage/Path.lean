import IntentFirewall.Text.Substring

/-!
# Paths

A path is a text in which slashes part the names. Two spellings lead to the same place if they
have the same names in the same order: repeated slashes, a slash at the end and single dots other
than a leading one do not count. Double dots are names like any other, as only the files on a disk
can tell where they lead.

* `Path.ofText`: the place that a text leads to.
* `join`: a name put behind a directory.
* `parent?`: the text of the directory that a path lies in.
-/

namespace IntentFirewall

/-- A place in a tree of files, independent of its spelling. -/
structure Path where
  /-- Whether the path starts at the root. -/
  absolute : Bool
  /-- The names from there on. -/
  names : List String
  deriving DecidableEq, Repr

namespace Path

/-- Whether a path starts at the root. -/
def isAbsolute (text : String) : Bool := text.toList.head? == some '/'

/-- Whether a path ends in a slash. -/
def endsInSlash (text : String) : Bool := text.toList.getLast? == some '/'

/-- Whether a piece between slashes is no step to another place. -/
def isIdle (piece : String) : Bool := piece == "" || piece == "."

/-- The place that a text leads to. -/
def ofText (text : String) : Path :=
  match Text.splitAt '/' text with
  | [] => ⟨false, []⟩
  | first :: rest =>
    let names := rest.filter (!isIdle ·)
    if isAbsolute text then ⟨true, names⟩
    else ⟨false, if first = "" then names else first :: names⟩

/-- A name put behind a directory. -/
def join (directory name : String) : String :=
  if directory = "" || endsInSlash directory then directory ++ name
  else directory ++ "/" ++ name

/-- Puts pieces together again. -/
def ofPieces (pieces : List String) : String := Text.joinWith "/" pieces

/-- The pieces of a path without the last step, given the pieces in reverse order, where the first
piece of the path is a step of its own unless it is empty. Nothing is left of a path without a
step. -/
def withoutLast? (first : String) (reversed : List String) : Option (List String) :=
  match reversed.dropWhile isIdle with
  | _ :: rest => some (first :: (rest.dropWhile isIdle).reverse)
  | [] => if first = "" then none else some []

/-- The text of the directory that a path lies in: empty for a single name, and missing for the
root and the empty path. -/
def parent? (text : String) : Option String :=
  match Text.splitAt '/' text with
  | [] => none
  | first :: rest =>
    (withoutLast? first rest.reverse).map fun pieces =>
      if pieces = [""] then "/" else ofPieces pieces

/-- The paths at which one comes by on the way to a path, which is the last of them. -/
def onTheWay (text : String) : List String :=
  let pieces := Text.splitAt '/' text
  ((List.range pieces.length).map fun n => ofPieces (pieces.take (n + 1))).filter (· != "")

end Path
end IntentFirewall
