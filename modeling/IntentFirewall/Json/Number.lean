import IntentFirewall.Decimal.Shortest
import IntentFirewall.Json.Token

/-!
# JSON numbers

The number that a numeral denotes. Whole numbers in 64 bits, with or without a sign, are exact; any
other number is a binary64, computed from the digits that fit into 64 bits and a power of ten.

* `Numeral.value?`: the number; one beyond the greatest binary64 is missing.
* `Number.text`: the number as text.
-/

namespace IntentFirewall.Json

/-- A number. -/
inductive Number
  /-- A whole number. -/
  | whole (n : Int)
  /-- A floating-point number, with a sign of its own. -/
  | float (negative : Bool) (size : Binary64)
  deriving DecidableEq, Repr

/-- The digits of a numeral that have been taken into account. -/
structure Significand where
  /-- The digits as a whole number in 64 bits. -/
  value : Nat
  /-- The power of ten of the last of them. -/
  scale : Int
  deriving DecidableEq, Repr

namespace Numeral

/-- The value of a decimal digit. -/
def digit (c : Char) : Nat := c.toNat - '0'.toNat

/-- The numbers below this one fit into 64 bits. -/
def wordSize : Nat := Nat.pow 2 64

/-- The numbers up to this one fit into a signed word of 32 bits. -/
def exponentLimit : Nat := Nat.pow 2 31 - 1

/-- Takes the digits before the point. From the first one on that does not fit, digits only count.
The flag tells whether all of them fit. -/
def takeWhole (value : Nat) : List Char → Significand × Bool
  | [] => (⟨value, 0⟩, true)
  | c :: cs =>
    if value * 10 + digit c < wordSize then takeWhole (value * 10 + digit c) cs
    else (⟨value, (c :: cs).length⟩, false)

/-- Takes the digits behind the point. From the first one on that does not fit, digits are passed
over. -/
def takeFraction (s : Significand) : List Char → Significand
  | [] => s
  | c :: cs =>
    if s.value * 10 + digit c < wordSize then
      takeFraction ⟨s.value * 10 + digit c, s.scale - 1⟩ cs
    else s

/-- The number that starts with `n` and goes on with the given digits, unless it is beyond the
limit of an exponent. -/
def takeExponent (n : Nat) : List Char → Option Nat
  | [] => some n
  | c :: cs =>
    if n * 10 + digit c ≤ exponentLimit then takeExponent (n * 10 + digit c) cs else none

/-- A power of ten as a binary64. -/
def powerOfTen (n : Nat) : Binary64 := (Binary64.ofNat? (Nat.pow 10 n)).getD .zero

/-- The greatest power of ten that is a binary64. -/
def powerLimit : Nat := 308

/-- A number divided by a power of ten, at most so many factors `10 ^ 308` at a time. Zero stays
zero. -/
def shrink (x : Binary64) (power : Nat) : Nat → Binary64
  | 0 => .zero
  | steps + 1 =>
    if x.isZero then x
    else if power ≤ powerLimit then (x.div? (powerOfTen power)).getD .zero
    else shrink ((x.div? (powerOfTen powerLimit)).getD .zero) (power - powerLimit) steps

/-- The binary64 of a significand with a power of ten. -/
def scaled? (value : Nat) (power : Int) : Option Binary64 :=
  let x := (Binary64.ofNat? value).getD .zero
  if 0 ≤ power then
    if power.toNat ≤ powerLimit then x.mul? (powerOfTen power.toNat)
    else if x.isZero then some x else none
  -- Three steps take every number of 64 bits to zero.
  else some (shrink x (-power).toNat 4)

/-- The number that a numeral denotes. -/
def value? (n : Numeral) : Option Number :=
  let (significand, fits) := takeWhole 0 n.whole
  match n.fraction, n.exponent with
  | none, none =>
    if fits then
      if n.negative then
        if 0 < significand.value ∧ significand.value ≤ Nat.pow 2 63 then
          some (.whole (-(significand.value : Int)))
        else some (.float true ((Binary64.ofNat? significand.value).getD .zero))
      else some (.whole significand.value)
    else (scaled? significand.value significand.scale).map (.float n.negative)
  | fraction, exponent =>
    let s := takeFraction significand (fraction.getD [])
    match exponent with
    | none => (scaled? s.value s.scale).map (.float n.negative)
    | some (down, digits) =>
      match takeExponent 0 digits with
      | some e =>
        (scaled? s.value (if down then s.scale - e else s.scale + e)).map (.float n.negative)
      | none => if down ∨ s.value = 0 then some (.float n.negative .zero) else none

/-- The numeral of a whole number. -/
def ofNat (n : Nat) : Numeral := ⟨false, Nat.toDigits 10 n, none, none⟩

end Numeral

/-- A number as text. -/
def Number.text : Number → List Char
  | .whole n => (if n < 0 then ['-'] else []) ++ Nat.toDigits 10 n.natAbs
  | .float negative size => (if negative then ['-'] else []) ++ size.text

end IntentFirewall.Json
