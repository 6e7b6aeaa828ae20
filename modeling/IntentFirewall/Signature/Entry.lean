import IntentFirewall.Json.Canonical
import IntentFirewall.Signature.Basic
import IntentFirewall.Text.Substring

/-!
# Signature entries

A signature in a file. Its fragments are a list, or one text in which bars part them, or both; its
category may be the first of several. Everything may be missing.

* `Signature.ofEntry` makes the signature that an entry describes.
* `readEntries` reads the entries of a text.
-/

namespace IntentFirewall

/-- A signature as it is written. -/
structure SignatureEntry where
  /-- The identifier, any value by its text. -/
  id : Option String
  /-- The name of the library. -/
  name : String
  /-- Fragments of class names. -/
  patterns : List String
  /-- More of them, parted by bars. -/
  codeSignature : Option String
  /-- What the library is for. -/
  category : Option String
  /-- The same, of which the first one counts if `category` is missing. -/
  categories : List String
  /-- Where to read about it. -/
  website : Option String
  deriving DecidableEq, Repr

namespace SignatureEntry

open Json

/-- The number of arrays and objects that may be nested in an identifier, which lies in an entry of
a list. -/
def identifierNesting : Nat := nestingLimit - 2

/-- An identifier: a text, or the canonical text of any other value. -/
def identifier : Decoder String
  | .literal l => readLiteral l
  | t => (canonical identifierNesting t).map String.ofList

/-- The fields of an entry. -/
def fields : List Field :=
  [.lacking "id" (optional identifier), .lacking "name" text, .lacking "patterns" (list text),
    .lacking "code_signature" (optional text), .lacking "category" (optional text),
    .lacking "categories" (list text), .lacking "website" (optional text)]

/-- Decodes an entry. -/
def decoder : Decoder SignatureEntry := fun t => do
  let r ← readRecord fields t
  let id ← r.getD "id" (optional identifier) none
  let name ← r.getD "name" text ""
  let patterns ← r.getD "patterns" (list text) []
  let codeSignature ← r.getD "code_signature" (optional text) none
  let category ← r.getD "category" (optional text) none
  let categories ← r.getD "categories" (list text) []
  let website ← r.getD "website" (optional text) none
  .ok ⟨id, name, patterns, codeSignature, category, categories, website⟩

end SignatureEntry

/-- The entries of a text, which is an array of them. -/
def readEntries (input : String) : Except Json.Error (List SignatureEntry) :=
  Json.decode (Json.list SignatureEntry.decoder) input

namespace Signature

/-- All fragments of an entry. -/
def fragments (e : SignatureEntry) : List String :=
  e.patterns ++ (e.codeSignature.map (Text.splitAt '|')).getD []

/-- The signature that an entry describes. -/
def ofEntry (e : SignatureEntry) : Except SignatureError Signature :=
  match build e.name (fragments e) ((e.category.or e.categories.head?).getD "") with
  | .error err => .error err
  | .ok s => .ok { s with id := e.id, website := e.website.filter (· != "") }

/-- The signatures that entries describe, or the error of the first one that describes none. -/
def ofEntries : List SignatureEntry → Except SignatureError (List Signature)
  | [] => .ok []
  | e :: rest =>
    match ofEntry e with
    | .error err => .error err
    | .ok s =>
      match ofEntries rest with
      | .error err => .error err
      | .ok ss => .ok (s :: ss)

end Signature
end IntentFirewall
