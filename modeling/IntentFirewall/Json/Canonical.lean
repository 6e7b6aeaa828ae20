import IntentFirewall.Json.Decode
import IntentFirewall.Json.Quote

/-!
# Canonical JSON

A value that is kept for its text only is written without white space, its strings with as few
escapes as possible, its numbers as short as possible and the members of its objects in the order of
their keys, of which the last one counts where a key comes again.

* `canonical`: the canonical text of a tree, which may be nested only so deep.
-/

namespace IntentFirewall.Json

/-- A word as text. -/
def Word.text : Word → List Char
  | .null => "null".toList
  | .yes => "true".toList
  | .no => "false".toList

/-- Pairs in the order of their keys, with one more, which replaces one of the same key. -/
def insertPair (key : String) (value : List Char) :
    List (String × List Char) → List (String × List Char)
  | [] => [(key, value)]
  | p :: rest =>
    if key < p.1 then (key, value) :: p :: rest
    else if key = p.1 then (key, value) :: rest
    else p :: insertPair key value rest

/-- Texts with commas between them. -/
def commaList (texts : List (List Char)) : List Char := [','].intercalate texts

/-- The text of an object with the given members. -/
def objectText (pairs : List (String × List Char)) : List Char :=
  '\x7b' :: commaList (pairs.map fun p => quote p.1 ++ ':' :: p.2) ++ ['\x7d']

mutual

/-- The canonical text of a value in which at most `depth` arrays and objects are nested. -/
def canonical (depth : Nat) : Tree → Except Error (List Char)
  | .word w failure => (checkEnd failure).map fun _ => w.text
  | .numeral n => (readNumeral n).map Number.text
  | .literal l => (readLiteral l).map quote
  | .array items =>
    match depth with
    | 0 => .error .malformed
    | depth + 1 =>
      (canonicalItems depth items).map fun texts => '[' :: commaList texts ++ [']']
  | .object members =>
    match depth with
    | 0 => .error .malformed
    | depth + 1 => (canonicalMembers depth [] members).map objectText
  | .missing e => .error e

/-- The canonical texts of the values of an array. -/
def canonicalItems (depth : Nat) : Items → Except Error (List (List Char))
  | .stop none => .ok []
  | .stop (some e) => .error e
  | .item value rest => do
    let t ← canonical depth value
    let ts ← canonicalItems depth rest
    .ok (t :: ts)

/-- The members of an object in canonical order, given those before them. -/
def canonicalMembers (depth : Nat) (pairs : List (String × List Char)) :
    Members → Except Error (List (String × List Char))
  | .stop none => .ok pairs
  | .stop (some e) => .error e
  | .noKey e => .error e
  | .member key value rest => do
    let key ← readLiteral key
    let t ← canonical depth value
    canonicalMembers depth (insertPair key t pairs) rest

end

/-- The number of arrays and objects that may be nested where a value is kept. -/
def nestingLimit : Nat := 127

end IntentFirewall.Json
