import IntentFirewall.Distinct
import IntentFirewall.Json.Token
import IntentFirewall.Storage.Error
import IntentFirewall.Text.Blank

/-!
# Tracker signatures

A signature tells a tracking library by fragments of class names.

* `Signature.build` makes one from a name and fragments, of which blank and repeated ones are
  dropped and the others trimmed.
-/

namespace IntentFirewall

/-- What tells a tracking library. -/
structure Signature where
  /-- The identifier in the source of the data, if it had one. -/
  id : Option String
  /-- The name of the library. -/
  name : String
  /-- The fragments of class names. -/
  patterns : List String
  /-- What the library is for. -/
  category : String
  /-- Where to read about it. -/
  website : Option String
  deriving DecidableEq, Repr

/-- Why there are no signatures. -/
inductive SignatureError
  /-- The file cannot be read. -/
  | file (cause : FileError)
  /-- The text is not a list of signature entries. -/
  | json (cause : Json.Error)
  /-- A signature has a blank name. -/
  | noName
  /-- A signature has no fragment that is not blank. -/
  | noPatterns (name : String)
  deriving DecidableEq, Repr

/-- The wording of a signature error; that of a malformed text depends on the reader. -/
def SignatureError.message? : SignatureError → Option String
  | .file cause => some s!"IO error: {cause.message}"
  | .json _ => none
  | .noName => some "Signature has no name"
  | .noPatterns name => some s!"Signature {name} has no code patterns"

namespace Signature

/-- Fragments without white space at their ends, blank ones and repetitions dropped. -/
def normalize (fragments : List String) : List String :=
  distinctBy (fun fragment => fragment) [] ((fragments.map Text.trim).filter (· != ""))

/-- A signature without identifier and website. -/
def build (name : String) (fragments : List String) (category : String) :
    Except SignatureError Signature :=
  if Text.isBlankText name then .error .noName
  else
    match normalize fragments with
    | [] => .error (.noPatterns name)
    | patterns => .ok ⟨none, name, patterns, category, none⟩

end Signature
end IntentFirewall
