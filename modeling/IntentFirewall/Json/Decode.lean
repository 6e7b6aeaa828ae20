import IntentFirewall.Json.Tree
import IntentFirewall.Json.Number

/-!
# Decoding JSON

Trees are decoded to what is asked for. Of several errors the one that stands first in the text is
reported; a value that is passed over only has to keep the grammar, while one that is kept also has
to be representable.

## Main definitions

* `Decoder`: a way to decode a tree. `text`, `flag`, `optional` and `list` are the common ones.
* `Field`, `readRecord`: records, which are written as objects or as arrays of their fields.
* `decode`: decodes a whole text.
-/

namespace IntentFirewall.Json

/-- A way to decode a tree. -/
abbrev Decoder (α : Type) := Tree → Except Error α

/-- The error of a broken place, or none. -/
def checkEnd : Option Error → Except Error Unit
  | none => .ok ()
  | some e => .error e

/-! ## Strings and numerals -/

/-- The code units that begin a pair. -/
def isLeading (n : Nat) : Bool := 0xD800 ≤ n && n ≤ 0xDBFF

/-- The code units that end a pair. -/
def isTrailing (n : Nat) : Bool := 0xDC00 ≤ n && n ≤ 0xDFFF

/-- The character of a pair of code units. -/
def charOfPair (leading trailing : Nat) : Char :=
  Char.ofNat ((leading - 0xD800) * 1024 + (trailing - 0xDC00) + 0x10000)

/-- The text of the pieces of a string, given the characters already read, newest first, and what
is wrong behind the pieces. A code unit that is half of a pair denotes nothing by itself. -/
def readPieces (failure : Option Error) (acc : List Char) : List Piece → Except Error String
  | [] =>
    match failure with
    | none => .ok (String.ofList acc.reverse)
    | some e => .error e
  | .char c :: rest => readPieces failure (c :: acc) rest
  | .code n :: rest =>
    if isTrailing n then .error .malformed
    else if isLeading n then
      -- The other half has to stand right behind it.
      match rest with
      | [] => .error (failure.getD .malformed)
      | .char _ :: _ => .error .malformed
      | .code m :: rest =>
        if isTrailing m then readPieces failure (charOfPair n m :: acc) rest
        else .error .malformed
    else readPieces failure (Char.ofNat n :: acc) rest

/-- The text that a string denotes. -/
def readLiteral (l : Literal) : Except Error String := readPieces l.failure [] l.items

/-- The number that a numeral denotes. -/
def readNumeral (n : Except Error Numeral) : Except Error Number :=
  match n with
  | .error e => .error e
  | .ok n =>
    match n.value? with
    | some x => .ok x
    | none => .error .malformed

/-! ## Common decoders -/

/-- The error of a value of the wrong kind. A word, numeral or string is read before that is
noticed, an array or object is not. -/
def mismatch {α : Type} : Decoder α
  | .word _ (some e) => .error e
  | .numeral n =>
    match readNumeral n with
    | .error e => .error e
    | .ok _ => .error .mismatched
  | .literal l =>
    match readLiteral l with
    | .error e => .error e
    | .ok _ => .error .mismatched
  | .missing e => .error e
  | _ => .error .mismatched

/-- A text. -/
def text : Decoder String
  | .literal l => readLiteral l
  | t => mismatch t

/-- A flag. -/
def flag : Decoder Bool
  | .word .yes failure => (checkEnd failure).map fun _ => true
  | .word .no failure => (checkEnd failure).map fun _ => false
  | t => mismatch t

/-- No value. -/
def null : Decoder Unit
  | .word .null failure => checkEnd failure
  | t => mismatch t

/-- A value or none. -/
def optional {α : Type} (d : Decoder α) : Decoder (Option α)
  | .word .null failure => (checkEnd failure).map fun _ => none
  | t => (d t).map some

/-- The values of an array, one after the other. -/
def listItems {α : Type} (d : Decoder α) : Items → Except Error (List α)
  | .stop none => .ok []
  | .stop (some e) => .error e
  | .item value rest => do
    let a ← d value
    let as ← listItems d rest
    .ok (a :: as)

/-- An array of values of one kind. -/
def list {α : Type} (d : Decoder α) : Decoder (List α)
  | .array items => listItems d items
  | t => mismatch t

/-! ## Passing over -/

mutual

/-- Passes over a value. A numeral that lacks digits breaks the grammar, even if the text ends where
they are due. -/
def skip : Tree → Except Error Unit
  | .word _ failure => checkEnd failure
  | .numeral (.ok _) => .ok ()
  | .numeral (.error _) => .error .malformed
  | .literal l => checkEnd l.failure
  | .array items => skipItems items
  | .object members => skipMembers members
  | .missing e => .error e

/-- Passes over the values of an array. -/
def skipItems : Items → Except Error Unit
  | .stop failure => checkEnd failure
  | .item value rest => do
    skip value
    skipItems rest

/-- Passes over the members of an object. -/
def skipMembers : Members → Except Error Unit
  | .stop failure => checkEnd failure
  | .noKey e => .error e
  | .member key value rest => do
    checkEnd key.failure
    skip value
    skipMembers rest

end

/-! ## Records -/

/-- A field of a record. -/
structure Field where
  /-- Its key in an object. -/
  key : String
  /-- What its value has to pass. -/
  check : Decoder Unit
  /-- Whether an array of fields may end before it. -/
  mayLack : Bool

/-- A field whose value `d` decodes. -/
def Field.of {α : Type} (key : String) (d : Decoder α) : Field :=
  ⟨key, fun t => (d t).map fun _ => (), false⟩

/-- A field that may be missing in an array of fields, too. -/
def Field.lacking {α : Type} (key : String) (d : Decoder α) : Field :=
  { Field.of key d with mayLack := true }

/-- The values of the fields of a record that are there. -/
abbrev Record := List (String × Tree)

/-- The fields in the members of an object. Other members are passed over; a field that comes again
is an error, which shows at its key. -/
def recordOfMembers (fields : List Field) (seen : Record) : Members → Except Error Record
  | .stop none => .ok seen
  | .stop (some e) => .error e
  | .noKey e => .error e
  | .member key value rest => do
    let key ← readLiteral key
    match fields.find? (fun f => f.key == key) with
    | none =>
      skip value
      recordOfMembers fields seen rest
    | some field =>
      if (seen.lookup key).isSome then .error .mismatched
      else
        field.check value
        recordOfMembers fields ((key, value) :: seen) rest

/-- The fields in the values of an array. -/
def recordOfItems : List Field → Items → Except Error Record
  | [], .stop none => .ok []
  | [], .stop (some e) => .error e
  | [], .item _ _ => .error .malformed
  | _ :: _, .stop (some e) => .error e
  | field :: fields, .stop none =>
    if field.mayLack then recordOfItems fields (.stop none) else .error .mismatched
  | field :: fields, .item value rest => do
    field.check value
    let record ← recordOfItems fields rest
    .ok ((field.key, value) :: record)

/-- A record with the given fields, written as an object or as an array of the fields in order. -/
def readRecord (fields : List Field) : Decoder Record
  | .object members => recordOfMembers fields [] members
  | .array items => recordOfItems fields items
  | t => mismatch t

namespace Record

/-- The value of a field that has to be there. -/
def required {α : Type} (r : Record) (key : String) (d : Decoder α) : Except Error α :=
  match r.lookup key with
  | none => .error .mismatched
  | some t => d t

/-- The value of a field, or another one if it is not there. -/
def getD {α : Type} (r : Record) (key : String) (d : Decoder α) (default : α) :
    Except Error α :=
  match r.lookup key with
  | none => .ok default
  | some t => d t

end Record

/-! ## Choices and whole texts -/

/-- One of several names: written as a string, or as an object with the name as its only key and
no value. -/
def choice {α : Type} (ofName? : String → Option α) : Decoder α
  | .literal l => do
    match ofName? (← readLiteral l) with
    | some a => .ok a
    | none => .error .mismatched
  | .object (.member key value rest) => do
    match ofName? (← readLiteral key) with
    | none => .error .mismatched
    | some a =>
      null value
      match rest with
      | .stop none => .ok a
      | .stop (some e) => .error e
      | _ => .error .malformed
  | .object (.noKey e) => .error e
  | .object (.stop failure) => .error (failure.getD .malformed)
  | .missing e => .error e
  | _ => .error .malformed

/-- Decodes a text, which has to end behind the value. -/
def decode {α : Type} (d : Decoder α) (input : String) : Except Error α := do
  let reading := read input
  let a ← d reading.tree
  if reading.trailing then .error .malformed else .ok a

end IntentFirewall.Json
