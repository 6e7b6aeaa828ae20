import IntentFirewall.Xml.Content
import IntentFirewall.Xml.Entity

/-!
# Writing elements

An element is written with an indentation of four spaces for each depth. Every tag and comment
begins a line of its own, unless it follows a text: a line break there would become part of the
text. Texts and attribute values are escaped, comments are written as they are.

* `Content.print` writes a content at a given depth. It is what `Content.printBefore` puts before a
  text, so that nothing is copied on the way out of nested elements.
* `Element.print` writes the root element of a document.
-/

namespace IntentFirewall.Xml

/-- A line break and the indentation of a depth. -/
def lineBreak (depth : Nat) : List Char := '\n' :: List.replicate (4 * depth) ' '

/-- The break in front of a tag or comment, which is missing behind a text. -/
def breakUnless (afterText : Bool) (depth : Nat) : List Char :=
  if afterText then [] else lineBreak depth

/-- An attribute in a tag, with the space before it. -/
def printAttribute (a : String × String) : List Char :=
  ' ' :: a.1.toList ++ '=' :: '"' :: escape a.2.toList ++ ['"']

/-- A name and attributes, as they stand in a tag. -/
def printTag (name : String) (attributes : Attributes) : List Char :=
  name.toList ++ attributes.flatMap printAttribute

/-- The end tag of an element. -/
def printEndTag (name : String) : List Char := '<' :: '/' :: name.toList ++ ['>']

namespace Content

/-- A content at a given depth, and the text behind it. `afterText` tells whether its first node
follows a text. -/
def printBefore (depth : Nat) (afterText : Bool) : Content → List Char → List Char
  | nil, behind => behind
  | element name attributes nil rest, behind =>
    breakUnless afterText depth ++ '<' :: printTag name attributes ++ '/' :: '>' ::
      rest.printBefore depth false behind
  | element name attributes children rest, behind =>
    breakUnless afterText depth ++ '<' :: printTag name attributes ++ '>' ::
      children.printBefore (depth + 1) false
        (breakUnless children.endsInText depth ++ printEndTag name ++
          rest.printBefore depth false behind)
  | text t rest, behind => escape t.toList ++ rest.printBefore depth true behind
  | comment t rest, behind =>
    breakUnless afterText depth ++ "<!--".toList ++ t.toList ++ "-->".toList ++
      rest.printBefore depth false behind

/-- A content at a given depth. -/
def print (depth : Nat) (afterText : Bool) (c : Content) : List Char :=
  c.printBefore depth afterText []

theorem printBefore_append (depth : Nat) (afterText : Bool) (c : Content)
    (behind others : List Char) :
    c.printBefore depth afterText (behind ++ others) =
      c.printBefore depth afterText behind ++ others := by
  induction c generalizing depth afterText behind with
  | nil => rfl
  | element name attributes children rest ihChildren ihRest =>
    by_cases h : children = nil
    · simp [h, printBefore, ihRest]
    · simp [printBefore, ihRest, ← ihChildren]
  | text t rest ih => simp [printBefore, ih]
  | comment t rest ih => simp [printBefore, ih]

/-- What stands behind a content does not change how it is written. -/
theorem printBefore_eq_append (depth : Nat) (afterText : Bool) (c : Content)
    (behind : List Char) :
    c.printBefore depth afterText behind = c.print depth afterText ++ behind :=
  c.printBefore_append depth afterText [] behind

@[simp]
theorem print_nil (depth : Nat) (afterText : Bool) : nil.print depth afterText = [] := rfl

theorem print_element_nil (depth : Nat) (afterText : Bool) (name : String)
    (attributes : Attributes) (rest : Content) :
    (element name attributes nil rest).print depth afterText =
      breakUnless afterText depth ++ '<' :: printTag name attributes ++ '/' :: '>' ::
        rest.print depth false := rfl

theorem print_element {children : Content} (h : children ≠ nil) (depth : Nat) (afterText : Bool)
    (name : String) (attributes : Attributes) (rest : Content) :
    (element name attributes children rest).print depth afterText =
      breakUnless afterText depth ++ '<' :: printTag name attributes ++ '>' ::
        (children.print (depth + 1) false ++ breakUnless children.endsInText depth ++
          printEndTag name ++ rest.print depth false) := by
  simp [print, printBefore, ← printBefore_append]

theorem print_text (depth : Nat) (afterText : Bool) (t : String) (rest : Content) :
    (text t rest).print depth afterText = escape t.toList ++ rest.print depth true := rfl

theorem print_comment (depth : Nat) (afterText : Bool) (t : String) (rest : Content) :
    (comment t rest).print depth afterText =
      breakUnless afterText depth ++ "<!--".toList ++ t.toList ++ "-->".toList ++
        rest.print depth false := rfl

end Content

/-- A document with the given root element, which has a start tag and an end tag even if nothing
stands between them. A line break ends the document. -/
def Element.print (root : Element) : List Char :=
  '<' :: printTag root.name root.attributes ++ '>' :: root.children.printBefore 1 false
    (breakUnless root.children.endsInText 0 ++ printEndTag root.name ++ ['\n'])

theorem Element.print_eq (root : Element) :
    root.print =
      '<' :: printTag root.name root.attributes ++ '>' :: root.children.print 1 false ++
        breakUnless root.children.endsInText 0 ++ printEndTag root.name ++ ['\n'] := by
  simp [Element.print, Content.printBefore_eq_append]

end IntentFirewall.Xml
