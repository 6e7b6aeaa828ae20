import IntentFirewall.Decimal.Binary64

/-!
# Shortest decimals

The decimal with the fewest digits that is read back as a given number, and of those the one
nearest to it. All numbers between the midpoints to the two neighbours are read back as the
number; the midpoints themselves are if the mantissa is even.

* `Decimal.shortest` tries one digit, two digits and so on.
* `Decimal.text` writes the decimal with a point as long as it is neither very long nor very
  small, and with an exponent otherwise.
-/

namespace IntentFirewall

/-- The decimal `digits * 10 ^ scale`. -/
structure Decimal where
  /-- The digits as a whole number. -/
  digits : Nat
  /-- The power of ten. -/
  scale : Int
  deriving DecidableEq, Repr

namespace Decimal

/-- The numbers that are read back as a given one, as whole multiples of `1 / unit`. -/
structure Interval where
  /-- The lower end. -/
  low : Nat
  /-- The number itself. -/
  middle : Nat
  /-- The upper end. -/
  high : Nat
  /-- The common denominator. -/
  unit : Nat
  /-- Whether the ends belong to the interval. -/
  closed : Bool
  deriving DecidableEq, Repr

/-- The interval of a number. Below a power of two the neighbour is only half as far away, except
for the smallest numbers. -/
def Interval.ofBinary64 (x : Binary64) : Interval :=
  let narrow := x.mantissa == Nat.pow 2 52 && Binary64.minExponent < x.exponent
  let low := if narrow then 4 * x.mantissa - 1 else 4 * x.mantissa - 2
  let (a, b) := Binary64.toRatio ⟨1, x.exponent - 2⟩
  ⟨low * a, 4 * x.mantissa * a, (4 * x.mantissa + 2) * a, b, x.mantissa % 2 == 0⟩

/-- Whether `n / d` lies in the interval. -/
def Interval.contains (i : Interval) (n d : Nat) : Bool :=
  let p := n * i.unit
  if i.closed then i.low * d ≤ p && p ≤ i.high * d else i.low * d < p && p < i.high * d

/-- The number of decimal digits of a whole number. -/
def digitCount (n : Nat) : Nat := (Nat.toDigits 10 n).length

/-- The power of ten of the first digit of `num / den`. -/
def leadingScale (num den : Nat) : Int :=
  let k : Int := (digitCount num : Int) - (digitCount den : Int)
  let reached : Bool :=
    if 0 ≤ k then den * Nat.pow 10 k.toNat ≤ num else den ≤ num * Nat.pow 10 (-k).toNat
  if reached then k else k - 1

/-- The quotient `digits * 10 ^ scale` of whole numbers. -/
def toRatio (x : Decimal) : Nat × Nat :=
  if 0 ≤ x.scale then (x.digits * Nat.pow 10 x.scale.toNat, 1)
  else (x.digits, Nat.pow 10 (-x.scale).toNat)

/-- Whether a decimal lies in an interval. -/
def isIn (x : Decimal) (i : Interval) : Bool := i.contains x.toRatio.1 x.toRatio.2

/-- The decimal of a given scale that lies in the interval and is nearest to its middle, a tie
going to the even one. -/
def onGrid? (i : Interval) (scale : Int) : Option Decimal :=
  let (u, w) := Decimal.toRatio ⟨1, scale⟩
  let num := i.middle * w
  let den := i.unit * u
  let below : Decimal := ⟨num / den, scale⟩
  let above : Decimal := ⟨num / den + 1, scale⟩
  let r := num % den
  let nearer := if 2 * r < den then below
    else if den < 2 * r then above
    else if below.digits % 2 = 0 then below else above
  let farther := if nearer = below then above else below
  if nearer.isIn i then some nearer else if farther.isIn i then some farther else none

/-- The first decimal that lies in the interval when the scale descends from `scale`, with at most
`tries` scales; the last scale counts as found. -/
def search (i : Interval) (scale : Int) : Nat → Decimal
  | 0 => ⟨i.middle, scale⟩
  | tries + 1 =>
    match onGrid? i scale with
    | some x => x
    | none => search i (scale - 1) tries

/-- The shortest decimal that is read back as a positive number. Seventeen digits always are. -/
def shortest (x : Binary64) : Decimal :=
  let i := Interval.ofBinary64 x
  search i (leadingScale i.middle i.unit) 18

/-- The digits without the zeros at the end, and the power of ten of the last digit left. -/
def trimZeros : List Char → Int → List Char × Int
  | '0' :: rest, scale => trimZeros rest (scale + 1)
  | reversed, scale => (reversed.reverse, scale)

/-- The decimal exponents of the first digit at which a number is written without an exponent. -/
def isPlain (exponent : Int) : Bool := -5 ≤ exponent && exponent ≤ 15

/-- A decimal as text. -/
def text (x : Decimal) : List Char :=
  let (digits, scale) := trimZeros (Nat.toDigits 10 x.digits).reverse x.scale
  let length : Int := digits.length
  let exponent := length + scale - 1
  if isPlain exponent then
    if 0 ≤ scale then digits ++ List.replicate scale.toNat '0' ++ ['.', '0']
    else if 0 ≤ exponent then
      digits.take (exponent + 1).toNat ++ '.' :: digits.drop (exponent + 1).toNat
    else '0' :: '.' :: List.replicate (-exponent - 1).toNat '0' ++ digits
  else
    let mantissa :=
      match digits with
      | [] => []
      | [d] => [d]
      | d :: rest => d :: '.' :: rest
    mantissa ++ 'e' :: (if exponent < 0 then '-' else '+') :: Nat.toDigits 10 exponent.natAbs

end Decimal

/-- A number as the shortest text that is read back as it. -/
def Binary64.text (x : Binary64) : List Char :=
  if x.isZero then ['0', '.', '0'] else (Decimal.shortest x).text

end IntentFirewall
