import IntentFirewall.Text.Digit
import IntentFirewall.Text.Utf8

/-!
# Entities

The five characters that markup gives a meaning to are written as entities inside texts and
attribute values. Character references (`&#65;`, `&#x41;`) are read but never written.

- `escape` writes a text so that it holds no markup character.
- `unescape` reads it back, and reports the first entity that has no end or no meaning, with its
  range in bytes.
-/

namespace IntentFirewall.Xml

/-- The entity that stands for a character, or the character itself. -/
def escapeChar : Char → List Char
  | '<' => "&lt;".toList
  | '>' => "&gt;".toList
  | '&' => "&amp;".toList
  | '\'' => "&apos;".toList
  | '"' => "&quot;".toList
  | c => [c]

/-- A text in which every markup character is written as an entity. -/
def escape (cs : List Char) : List Char := cs.flatMap escapeChar

/-- Why a character reference denotes no character. -/
inductive ReferenceError
  /-- The number carries a sign. -/
  | signed
  /-- There are no digits. -/
  | empty
  /-- A character is not a digit of the radix. -/
  | badDigit
  /-- The number needs more than 32 bits. -/
  | tooLarge
  /-- The number is zero. -/
  | zero
  /-- The number is no character. -/
  | noCharacter (code : Nat)
  deriving DecidableEq, Repr

/-- Why a text cannot be unescaped. Ranges count bytes from the start of the text. -/
inductive EntityError
  /-- An `&` without a `;` before the next `&` or the end of the text. -/
  | unterminated (first last : Nat)
  /-- A name that is not one of the five. -/
  | unrecognized (first last : Nat) (name : String)
  /-- A character reference without a character. -/
  | reference (cause : ReferenceError)
  deriving DecidableEq, Repr

/-- The wording of a character reference error. -/
def ReferenceError.message : ReferenceError → String
  | .signed => "unexpected number sign"
  | .empty => "cannot parse integer from empty string"
  | .badDigit => "invalid digit found in string"
  | .tooLarge => "number too large to fit in target type"
  | .zero => "0x0 character is not permitted in XML"
  | .noCharacter code => s!"`{code}` is not a valid codepoint"

/-- The wording of an entity error. -/
def EntityError.message : EntityError → String
  | .unterminated first last =>
    s!"Error while escaping character at range {first}..{last}: Cannot find ';' after '&'"
  | .unrecognized first last name => s!"at {first}..{last}: unrecognized entity `{name}`"
  | .reference cause => s!"invalid character reference: {cause.message}"

/-- The number that starts with `n` and goes on with the given digits, in 32 bits. -/
def readDigits (radix : Nat) (n : Nat) : List Char → Except ReferenceError Nat
  | [] => .ok n
  | c :: cs =>
    match Text.digitValue? c with
    | none => .error .badDigit
    | some d =>
      if radix ≤ d then .error .badDigit
      else if Nat.pow 2 32 ≤ n * radix + d then .error .tooLarge
      else readDigits radix (n * radix + d) cs

/-- An unsigned number in 32 bits. -/
def readNumber (radix : Nat) : List Char → Except ReferenceError Nat
  | [] => .error .empty
  | '+' :: _ => .error .signed
  | '-' :: _ => .error .signed
  | cs => readDigits radix 0 cs

/-- The character with a given number. -/
def charOfCode (code : Nat) : Except ReferenceError Char :=
  if code = 0 then .error .zero
  else if code.isValidChar then .ok (Char.ofNat code)
  else .error (.noCharacter code)

/-- The character that a reference denotes, given what follows its `#`. -/
def readReference : List Char → Except ReferenceError Char
  | 'x' :: hex => readNumber 16 hex >>= charOfCode
  | decimal => readNumber 10 decimal >>= charOfCode

/-- The character that one of the five names denotes. -/
def predefined? (name : List Char) : Option Char :=
  match String.ofList name with
  | "lt" => some '<'
  | "gt" => some '>'
  | "amp" => some '&'
  | "apos" => some '\''
  | "quot" => some '"'
  | _ => none

/-- The character that an entity denotes, given its name and the position of its `&`. -/
def resolve (start : Nat) : List Char → Except EntityError Char
  | '#' :: number => (readReference number).mapError .reference
  | name =>
    match predefined? name with
    | some c => .ok c
    | none =>
      .error (.unrecognized (start + 1) (start + 1 + Utf8.size name) (String.ofList name))

/-- An entity whose `&` has been read. -/
structure OpenEntity where
  /-- The position of the `&`. -/
  start : Nat
  /-- The characters read since, newest first. -/
  name : List Char

/-- Unescapes `cs`, which begins at byte `position`, with the entity under way and the characters
already read, newest first. -/
def unescapeFrom : Option OpenEntity → Nat → List Char → List Char →
    Except EntityError (List Char)
  | none, _, acc, [] => .ok acc.reverse
  | some e, position, _, [] => .error (.unterminated e.start position)
  | none, position, acc, c :: cs =>
    if c = '&' then unescapeFrom (some ⟨position, []⟩) (position + 1) acc cs
    else unescapeFrom none (position + Utf8.charSize c) (c :: acc) cs
  | some e, position, acc, c :: cs =>
    if c = ';' then
      match resolve e.start e.name.reverse with
      | .ok d => unescapeFrom none (position + 1) (d :: acc) cs
      | .error err => .error err
    else if c = '&' then .error (.unterminated e.start (position + 1 + Utf8.size cs))
    else unescapeFrom (some ⟨e.start, c :: e.name⟩) (position + Utf8.charSize c) acc cs

/-- The text that an escaped text stands for. -/
def unescape (cs : List Char) : Except EntityError (List Char) := unescapeFrom none 0 [] cs

end IntentFirewall.Xml
