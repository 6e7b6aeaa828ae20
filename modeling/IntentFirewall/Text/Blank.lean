/-!
# White space

`isBlank` is the White_Space property of Unicode, by which texts are trimmed. What markup and JSON
skip between their tokens is the smaller set of `isSpace`.

- `trim` cuts blank characters from both ends of a text.
- `isBlankText` tells whether nothing would be left.
-/

namespace IntentFirewall.Text

/-- The White_Space property of Unicode. -/
def isBlank (c : Char) : Bool :=
  let n := c.toNat
  (9 ≤ n && n ≤ 13) || n == 0x20 || n == 0x85 || n == 0xA0 || n == 0x1680 ||
    (0x2000 ≤ n && n ≤ 0x200A) || n == 0x2028 || n == 0x2029 || n == 0x202F || n == 0x205F ||
    n == 0x3000

/-- The white space of markup and of JSON: space, tab, carriage return and line feed. -/
def isSpace (c : Char) : Bool := c == ' ' || c == '\t' || c == '\r' || c == '\n'

/-- A text without the leading and trailing characters for which `p` holds. -/
def trimBoth (p : Char → Bool) (cs : List Char) : List Char :=
  ((cs.dropWhile p).reverse.dropWhile p).reverse

/-- A text without the trailing characters for which `p` holds. -/
def trimEnd (p : Char → Bool) (cs : List Char) : List Char :=
  (cs.reverse.dropWhile p).reverse

/-- A text without blank characters at its ends. -/
def trim (s : String) : String := String.ofList (trimBoth isBlank s.toList)

/-- A text that has only blank characters. -/
def isBlankText (s : String) : Bool := s.toList.all isBlank

/-- Upper-case ASCII letters become lower-case ones; every other character stays. -/
def asciiLower (s : String) : String := String.ofList (s.toList.map Char.toLower)

/-- The spelling of a flag that is set: `true`, in any case, with white space around it. -/
def spellsTrue (s : String) : Bool := asciiLower (trim s) == "true"

end IntentFirewall.Text
