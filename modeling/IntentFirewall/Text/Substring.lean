/-!
# Texts inside texts

* `occursIn part text` tells whether `part` stands somewhere in `text`; the empty text does.
* `splitAt` cuts a text at every occurrence of a character.
-/

namespace IntentFirewall.Text

/-- Whether the characters of one list stand side by side in another. -/
def isPartOf (part : List Char) : List Char → Bool
  | [] => part.isEmpty
  | c :: cs => part.isPrefixOf (c :: cs) || isPartOf part cs

/-- Whether a text occurs in another. -/
def occursIn (part text : String) : Bool := isPartOf part.toList text.toList

/-- The pieces between the occurrences of a character, of which there is at least one. -/
def pieces (separator : Char) : List Char → List (List Char)
  | [] => [[]]
  | c :: cs =>
    if c = separator then [] :: pieces separator cs
    else
      match pieces separator cs with
      | [] => [[c]]
      | piece :: rest => (c :: piece) :: rest

/-- The texts between the occurrences of a character. -/
def splitAt (separator : Char) (text : String) : List String :=
  (pieces separator text.toList).map String.ofList

/-- A list of texts as one text, with a separator between them. -/
def joinWith (separator : String) (texts : List String) : String := separator.intercalate texts

end IntentFirewall.Text
