/-!
# Sets of characters

A property of characters is kept as the ascending list of the code points at which it changes:
characters below the first bound lack it, those from the first to the second have it, and so on.
-/

namespace IntentFirewall.Text

/-- A set of characters. -/
structure CharSet where
  /-- The code points at which membership changes, ascending. -/
  bounds : List Nat

namespace CharSet

/-- Whether an odd number of bounds lies at or below a code point. -/
def containsCode (code : Nat) : List Nat → Bool
  | [] => false
  | [first] => first ≤ code
  | first :: last :: rest =>
    if code < first then false
    else if code < last then true
    else containsCode code rest

/-- Whether a character belongs to the set. -/
def contains (s : CharSet) (c : Char) : Bool := containsCode c.toNat s.bounds

end CharSet
end IntentFirewall.Text
