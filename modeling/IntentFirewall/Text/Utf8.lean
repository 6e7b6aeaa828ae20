/-!
# UTF-8

Characters as bytes and back. A file is a `List UInt8`; a text is the characters it decodes to.

- `encode` writes each character in the one to four bytes that UTF-8 gives it.
- `decode` reads bytes one at a time. It refuses a byte that no well-formed sequence can hold at
  that place, and reports where the broken character begins and how many of its bytes were good.
- `size` measures a text in bytes, the unit in which positions are reported.
-/

namespace IntentFirewall.Utf8

/-- The number of bytes that a character takes. -/
def charSize (c : Char) : Nat :=
  if c.toNat < 0x80 then 1
  else if c.toNat < 0x800 then 2
  else if c.toNat < 0x10000 then 3
  else 4

/-- The number of bytes that a text takes. -/
def size (cs : List Char) : Nat :=
  cs.foldl (fun n c => n + charSize c) 0

/-- The byte that follows a lead byte and carries the six lowest bits of `n`. -/
def continuation (n : Nat) : UInt8 := UInt8.ofNat (0x80 + n % 64)

/-- The bytes of one character. -/
def encodeChar (c : Char) : List UInt8 :=
  let n := c.toNat
  if n < 0x80 then [UInt8.ofNat n]
  else if n < 0x800 then [UInt8.ofNat (0xC0 + n / 64), continuation n]
  else if n < 0x10000 then
    [UInt8.ofNat (0xE0 + n / 4096), continuation (n / 64), continuation n]
  else
    [UInt8.ofNat (0xF0 + n / 262144), continuation (n / 4096), continuation (n / 64),
      continuation n]

/-- The bytes of a text. -/
def encode (cs : List Char) : List UInt8 := cs.flatMap encodeChar

/-- What is wrong with bytes that are not UTF-8. -/
inductive Fault
  /-- The first `length` bytes of a character are followed by one that cannot come next, or the
  single byte there begins no character. -/
  | malformed (length : Nat)
  /-- The bytes end inside a character. -/
  | incomplete
  deriving DecidableEq, Repr

/-- Where bytes stop being UTF-8. -/
structure Error where
  /-- The number of bytes before the character at fault. -/
  index : Nat
  /-- What is wrong there. -/
  fault : Fault
  deriving DecidableEq, Repr

/-- The wording of a decoding error. -/
def Error.message (e : Error) : String :=
  match e.fault with
  | .malformed n => s!"invalid utf-8 sequence of {n} bytes from index {e.index}"
  | .incomplete => s!"incomplete utf-8 byte sequence from index {e.index}"

/-- A character whose lead byte has been read. -/
structure Pending where
  /-- Continuation bytes that are still owed. -/
  owed : Nat
  /-- The least value that the next byte may have. -/
  low : Nat
  /-- The greatest value that the next byte may have. -/
  high : Nat
  /-- The bits read so far. -/
  bits : Nat
  /-- The number of bytes read so far. -/
  taken : Nat
  deriving DecidableEq, Repr

/-- The character that a lead byte opens, if it opens one of several bytes. -/
def Pending.ofLead? (b : Nat) : Option Pending :=
  if 0xC2 ≤ b ∧ b ≤ 0xDF then some ⟨1, 0x80, 0xBF, b - 0xC0, 1⟩
  else if b = 0xE0 then some ⟨2, 0xA0, 0xBF, 0, 1⟩
  else if b = 0xED then some ⟨2, 0x80, 0x9F, 0xD, 1⟩
  else if 0xE1 ≤ b ∧ b ≤ 0xEF then some ⟨2, 0x80, 0xBF, b - 0xE0, 1⟩
  else if b = 0xF0 then some ⟨3, 0x90, 0xBF, 0, 1⟩
  else if 0xF1 ≤ b ∧ b ≤ 0xF3 then some ⟨3, 0x80, 0xBF, b - 0xF0, 1⟩
  else if b = 0xF4 then some ⟨3, 0x80, 0x8F, 4, 1⟩
  else none

/-- The character under way after one more continuation byte. -/
def Pending.push (p : Pending) (b : Nat) : Pending :=
  ⟨p.owed - 1, 0x80, 0xBF, p.bits * 64 + (b - 0x80), p.taken + 1⟩

/-- Decodes `bytes`, with the character under way, the number of bytes before that character, and
the characters already read, newest first. -/
def decodeFrom : Option Pending → Nat → List Char → List UInt8 → Except Error (List Char)
  | none, _, acc, [] => .ok acc.reverse
  | some _, index, _, [] => .error ⟨index, .incomplete⟩
  | none, index, acc, byte :: bytes =>
    if byte.toNat < 0x80 then decodeFrom none (index + 1) (Char.ofNat byte.toNat :: acc) bytes
    else match Pending.ofLead? byte.toNat with
      | some p => decodeFrom (some p) index acc bytes
      | none => .error ⟨index, .malformed 1⟩
  | some p, index, acc, byte :: bytes =>
    if p.low ≤ byte.toNat ∧ byte.toNat ≤ p.high then
      let q := p.push byte.toNat
      if q.owed = 0 then decodeFrom none (index + q.taken) (Char.ofNat q.bits :: acc) bytes
      else decodeFrom (some q) index acc bytes
    else .error ⟨index, .malformed p.taken⟩

/-- The characters that `bytes` encode, or the first place where they encode none. -/
def decode (bytes : List UInt8) : Except Error (List Char) := decodeFrom none 0 [] bytes

/-- The text that `bytes` encode. -/
def decodeString (bytes : List UInt8) : Except Error String := (decode bytes).map String.ofList

/-- The bytes of a string. -/
def encodeString (s : String) : List UInt8 := encode s.toList

end IntentFirewall.Utf8
