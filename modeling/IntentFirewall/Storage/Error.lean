/-!
# Storage errors

* `FileError`: what a file system answers when it cannot do something.
* `StorageError`: what a storage operation answers, which names the path.
-/

namespace IntentFirewall

/-- Why a file system cannot do something. -/
inductive FileError
  /-- A name on the way is missing. -/
  | notFound
  /-- Access is not allowed. -/
  | denied
  /-- The name is taken. -/
  | alreadyExists
  /-- A name on the way is a file. -/
  | notDirectory
  /-- A directory has no bytes. -/
  | isDirectory
  /-- A name, or the whole path, is too long. -/
  | nameTooLong
  /-- A path cannot hold a NUL. -/
  | nulInPath
  /-- A file cannot have that size. -/
  | sizeTooLarge
  /-- The bytes are no text. -/
  | notText
  /-- Any other reason. -/
  | other (reason : String)
  deriving DecidableEq, Repr

/-- The wording of a file error. -/
def FileError.message : FileError → String
  | .notFound => "No such file or directory (os error 2)"
  | .denied => "Permission denied (os error 13)"
  | .alreadyExists => "File exists (os error 17)"
  | .notDirectory => "Not a directory (os error 20)"
  | .isDirectory => "Is a directory (os error 21)"
  | .nameTooLong => "File name too long (os error 36)"
  | .nulInPath => "file name contained an unexpected NUL byte"
  | .sizeTooLarge => "number too large to fit in target type"
  | .notText => "stream did not contain valid UTF-8"
  | .other reason => reason

/-- Why a storage operation failed. -/
inductive StorageError
  /-- Access to the path is not allowed. -/
  | permissionDenied (path : String)
  /-- There is nothing at the path. -/
  | notFound (path : String)
  /-- The file system failed for another reason. -/
  | io (path : String) (cause : FileError)
  deriving DecidableEq, Repr

namespace StorageError

/-- The error of an operation on a path that the file system refused. -/
def ofFile (path : String) : FileError → StorageError
  | .notFound => .notFound path
  | .denied => .permissionDenied path
  | cause => .io path cause

/-- The wording of a storage error. -/
def message : StorageError → String
  | .permissionDenied path => s!"Permission denied: {path}"
  | .notFound path => s!"File not found: {path}"
  | .io path cause => s!"IO error on {path}: {cause.message}"

end StorageError
end IntentFirewall
