import IntentFirewall.Text.Lowercase.Table

/-!
# Lower-casing

The full lower-case mapping of Unicode for texts without a language.

* A capital sigma at the end of a word becomes the final sigma; elsewhere the inner one. A word
  ends there if a cased character precedes it and none follows, the characters that case ignores
  left aside.
* The dotted capital I becomes two characters.
* Every other character has the one lower-case form of `caseRanges`, or stays.
-/

namespace IntentFirewall.Text

/-- The lower-case form of the character `code` among `ranges`, or itself. -/
def lowerCode (code : Nat) : List CaseRange → Nat
  | [] => code
  | r :: rest =>
    if code < r.first then code
    else if code ≤ r.last then
      if (code - r.first) % r.step = 0 then r.target + (code - r.first) else code
    else lowerCode code rest

/-- The lower-case form of a character outside any word. -/
def lowerChar (c : Char) : Char :=
  if c.toNat < 0x80 then c.toLower else Char.ofNat (lowerCode c.toNat caseRanges)

/-- Whether the first character that case does not ignore is a cased one. -/
def meetsCased (cs : List Char) : Bool :=
  match cs.dropWhile caseIgnorable.contains with
  | [] => false
  | c :: _ => cased.contains c

/-- The lower-case form of `cs`, given the characters before it, newest first. -/
def lowerFrom (before : List Char) : List Char → List Char
  | [] => []
  | c :: cs =>
    let form :=
      if c = 'Σ' then if meetsCased before && !meetsCased cs then ['ς'] else ['σ']
      else if c = 'İ' then ['i', Char.ofNat 0x307]
      else [lowerChar c]
    form ++ lowerFrom (c :: before) cs

/-- The lower-case form of a text. -/
def lowercase (s : String) : String := String.ofList (lowerFrom [] s.toList)

end IntentFirewall.Text
