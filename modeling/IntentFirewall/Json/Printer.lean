import IntentFirewall.Json.Quote

/-!
# Writing JSON

Values are written in one line without white space, or with every item and member on a line of its
own, two spaces further in than what it belongs to.

* `Value`: what can be written.
* `Value.print`: a value in either layout; `Value.compact` and `Value.pretty` are its texts.
-/

namespace IntentFirewall.Json

/-- A value to be written. -/
inductive Value
  /-- No value. -/
  | null
  /-- A flag. -/
  | flag (b : Bool)
  /-- A number of things. -/
  | count (n : Nat)
  /-- A text. -/
  | text (s : String)
  /-- A list of values. -/
  | array (items : List Value)
  /-- Values with keys, in this order. -/
  | object (members : List (String × Value))

/-- How a value is laid out. -/
inductive Layout
  /-- In one line. -/
  | compact
  /-- In lines, given how far in the value is. -/
  | lines (depth : Nat)
  deriving DecidableEq, Repr

namespace Layout

/-- The layout of what is in an array or an object. -/
def inner : Layout → Layout
  | compact => compact
  | lines depth => lines (depth + 1)

/-- What begins a line. -/
def lineStart : Layout → List Char
  | compact => []
  | lines depth => '\n' :: List.replicate (2 * depth) ' '

/-- What stands between a key and its value. -/
def colon : Layout → List Char
  | compact => [':']
  | lines _ => [':', ' ']

/-- Texts in brackets, with commas between them. Without texts the brackets stand side by side. -/
def enclose (l : Layout) (first last : Char) : List (List Char) → List Char
  | [] => [first, last]
  | texts =>
    first :: [','].intercalate (texts.map (l.inner.lineStart ++ ·)) ++ l.lineStart ++ [last]

end Layout

namespace Value

/-- A text, or no value. -/
def ofText? (s : Option String) : Value := (s.map text).getD null

/-- A list of texts. -/
def ofTexts (texts : List String) : Value := array (texts.map text)

mutual

/-- The characters of a value. -/
def print (l : Layout) : Value → List Char
  | null => "null".toList
  | flag b => if b then "true".toList else "false".toList
  | count n => Nat.toDigits 10 n
  | text s => quote s
  | array items => l.enclose '[' ']' (printItems l.inner items)
  | object members => l.enclose '\x7b' '\x7d' (printMembers l.inner members)

/-- The characters of each value in a list. -/
def printItems (l : Layout) : List Value → List (List Char)
  | [] => []
  | value :: rest => value.print l :: printItems l rest

/-- The characters of each member of an object. -/
def printMembers (l : Layout) : List (String × Value) → List (List Char)
  | [] => []
  | (key, value) :: rest => (quote key ++ l.colon ++ value.print l) :: printMembers l rest

end

/-- A value in one line. -/
def compact (v : Value) : String := String.ofList (v.print .compact)

/-- A value in lines. -/
def pretty (v : Value) : String := String.ofList (v.print (.lines 0))

end Value
end IntentFirewall.Json
