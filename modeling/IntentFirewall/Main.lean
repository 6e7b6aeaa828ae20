import IntentFirewall.Command.Program

/-!
# The command line

Runs the program on the files of the machine. What the program looks at is read beforehand, and what
it has changed is written afterwards.
-/

namespace IntentFirewall.Command

/-- Adds what is at a path of the machine, if anything is there that can be read. -/
def lookAt (isDirectory : String → BaseIO Bool) (t : FileTree) (path : String) : IO FileTree := do
  if ← isDirectory path then return t.addDirectory path
  match ← (IO.FS.readBinFile path).toBaseIO with
  | .ok bytes => return t.addFile path bytes.toList
  | .error _ => return t

/-- The place as an absolute path. -/
def placeText (place : List String) : String := "/" ++ Path.ofPieces place

/-- Writes the entries that are new or changed. -/
def writeChanges (before after : FileTree) : IO Unit :=
  after.entries.forM fun (place, entry) => do
    unless before.node? place == some entry do
      match entry with
      | .directory => IO.FS.createDirAll (placeText place)
      | .file bytes => IO.FS.writeBinFile (placeText place) (ByteArray.mk bytes.toArray)

end IntentFirewall.Command

open IntentFirewall Command

def main (arguments : List String) : IO UInt32 := do
  let home ← IO.currentDir
  let isDirectory (path : String) := (home / path).isDir
  let nothing := FileTree.ofHome (FileTree.namesOf home.toString)
  let configured ← (inspected arguments nothing).foldlM (lookAt isDirectory) nothing
  let before ← (inspected arguments configured).foldlM (lookAt isDirectory) configured
  let (result, after) := run arguments before
  writeChanges before after
  IO.print result.output
  unless result.complaint.isEmpty do IO.eprintln result.complaint
  return result.exitCode.toUInt32
