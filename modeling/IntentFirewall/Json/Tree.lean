import IntentFirewall.Json.Token

/-!
# JSON trees

A value as it is written, up to the place where it is broken. Reading stops there, so what is
known of a broken text is a tree with one broken end; whoever walks the tree in the order of the
text meets it where a reader would have met it.

* `Tree`: words, numerals and strings as they are written, arrays and objects.
* `Reading.ofTokens`: the tree of a text that has been cut into tokens, and whether it ends there.
-/

namespace IntentFirewall.Json

mutual

/-- A value. -/
inductive Tree
  /-- A word, with what is wrong behind its first letter. -/
  | word (word : Word) (failure : Option Error)
  /-- A numeral, or what is wrong with it. -/
  | numeral (numeral : Except Error Numeral)
  /-- A string. -/
  | literal (literal : Literal)
  /-- A list of values. -/
  | array (items : Items)
  /-- Values with keys. -/
  | object (members : Members)
  /-- No value begins where one is due. -/
  | missing (failure : Error)

/-- The values of an array. -/
inductive Items
  /-- The end of the array, or what is wrong there. -/
  | stop (failure : Option Error)
  /-- A value and those behind it. -/
  | item (value : Tree) (rest : Items)

/-- The members of an object. -/
inductive Members
  /-- The end of the object, or what is wrong there. -/
  | stop (failure : Option Error)
  /-- Behind a comma, where a key is due, there is none. -/
  | noKey (failure : Error)
  /-- A key with its value, and the members behind them. -/
  | member (key : Literal) (value : Tree) (rest : Members)

end

/-- The items with values put before them, of which the last comes first. -/
def Items.pushAll : List Tree → Items → Items
  | [], items => items
  | value :: older, items => pushAll older (.item value items)

/-- The members with pairs put before them, of which the last comes first. -/
def Members.pushAll : List (Literal × Tree) → Members → Members
  | [], members => members
  | (key, value) :: older, members => pushAll older (.member key value members)

/-! ## Building a tree -/

/-- An array or object whose end has not been read. -/
inductive Frame
  /-- An array with the values read so far, newest first. -/
  | array (values : List Tree)
  /-- An object with the members read so far, newest first, and the key of the value that is being
  read. -/
  | object (members : List (Literal × Tree)) (key : Literal)

/-- What is due next, and the open arrays and objects around it, innermost first. -/
inductive Due
  /-- A value. -/
  | value (stack : List Frame)
  /-- The first value of an array, or its end. -/
  | firstItem (stack : List Frame)
  /-- A comma behind the values of an array, or its end. -/
  | nextItem (stack : List Frame) (values : List Tree)
  /-- The first key of an object, or its end. -/
  | firstKey (stack : List Frame)
  /-- A key behind a comma. -/
  | nextKey (stack : List Frame) (members : List (Literal × Tree))
  /-- The colon behind a key. -/
  | colon (stack : List Frame) (members : List (Literal × Tree)) (key : Literal)
  /-- A comma behind the members of an object, or its end. -/
  | nextMember (stack : List Frame) (members : List (Literal × Tree))
  /-- Nothing: the value is complete. -/
  | nothing (tree : Tree)

/-- The tree of a text and whether anything follows it. -/
structure Reading where
  /-- The first value of the text. -/
  tree : Tree
  /-- Whether anything but white space follows the value. -/
  trailing : Bool

namespace Due

/-- What is due behind a complete value. -/
def behind (value : Tree) : List Frame → Due
  | [] => .nothing value
  | .array values :: stack => .nextItem stack (value :: values)
  | .object members key :: stack => .nextMember stack ((key, value) :: members)

/-- The tree around a value behind which nothing is read any more. -/
def around (value : Tree) : List Frame → Tree
  | [] => value
  | .array values :: stack =>
    around (.array (.pushAll values (.item value (.stop (some .truncated))))) stack
  | .object members key :: stack =>
    around (.object (.pushAll members (.member key value (.stop (some .truncated))))) stack

/-- The tree of a text that cannot go on as it is due. -/
def fail (e : Error) : Due → Tree
  | value stack => around (.missing e) stack
  | firstItem stack => around (.array (.stop (some e))) stack
  | nextItem stack values => around (.array (.pushAll values (.stop (some e)))) stack
  | firstKey stack => around (.object (.stop (some e))) stack
  | nextKey stack members => around (.object (.pushAll members (.noKey e))) stack
  | colon stack members key =>
    around (.object (.pushAll members (.member key (.missing e) (.stop (some e))))) stack
  | nextMember stack members => around (.object (.pushAll members (.stop (some e)))) stack
  | nothing tree => tree

/-- Takes a token where a value is due. Nothing is given back if no value begins with it. -/
def pushValue? (stack : List Frame) : Token → Option Due
  | .arrayStart => some (.firstItem stack)
  | .objectStart => some (.firstKey stack)
  | .word w failure => some (behind (.word w failure) stack)
  | .numeral n => some (behind (.numeral n) stack)
  | .literal l => some (behind (.literal l) stack)
  | _ => none

/-- The end of the reading at a token that is out of place. -/
def misplaced (d : Due) : Except Reading Due := .error ⟨d.fail .malformed, false⟩

/-- Takes one token: what is due behind it, or the tree if it is out of place. -/
def push (d : Due) (t : Token) : Except Reading Due :=
  match d with
  | value stack =>
    match pushValue? stack t with
    | some next => .ok next
    | none => d.misplaced
  | firstItem stack =>
    match t with
    | .arrayEnd => .ok (behind (.array (.stop none)) stack)
    | t =>
      match pushValue? (.array [] :: stack) t with
      | some next => .ok next
      | none => d.misplaced
  | nextItem stack values =>
    match t with
    | .comma => .ok (.value (.array values :: stack))
    | .arrayEnd => .ok (behind (.array (.pushAll values (.stop none))) stack)
    | _ => d.misplaced
  | firstKey stack =>
    match t with
    | .literal key => .ok (.colon stack [] key)
    | .objectEnd => .ok (behind (.object (.stop none)) stack)
    | _ => d.misplaced
  | nextKey stack members =>
    match t with
    | .literal key => .ok (.colon stack members key)
    | _ => d.misplaced
  | colon stack members key =>
    match t with
    | .colon => .ok (.value (.object members key :: stack))
    | _ => d.misplaced
  | nextMember stack members =>
    match t with
    | .comma => .ok (.nextKey stack members)
    | .objectEnd => .ok (behind (.object (.pushAll members (.stop none))) stack)
    | _ => d.misplaced
  | nothing tree => .error ⟨tree, true⟩

/-- Takes tokens one after the other. -/
def pushAll (d : Due) : List Token → Reading
  | [] => ⟨d.fail .truncated, false⟩
  | t :: rest =>
    match d.push t with
    | .ok next => next.pushAll rest
    | .error reading => reading

end Due

/-- The tree of a text that has been cut into tokens. -/
def Reading.ofTokens (tokens : List Token) : Reading := (Due.value []).pushAll tokens

/-- The tree of a text. -/
def read (text : String) : Reading := .ofTokens (tokens text.toList)

end IntentFirewall.Json
