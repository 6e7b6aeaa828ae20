/-!
# Elements and their content

An element has a name, attributes and a content: elements, texts and comments in document order.
A content is its first node together with the content behind it, so that structural recursion
reaches every node at any depth.

## Main definitions

* `Content`, `Element`: the tree.
* `Content.elements`: the elements directly in a content.
* `Element.attribute?`, `Element.setAttribute`: look-up and update of an attribute by its key.
-/

namespace IntentFirewall.Xml

/-- The attributes of an element with their values, in document order. -/
abbrev Attributes := List (String × String)

/-- What stands between the tags of an element. -/
inductive Content
  /-- Nothing more. -/
  | nil
  /-- An element, and what follows it. -/
  | element (name : String) (attributes : Attributes) (children rest : Content)
  /-- A text, and what follows it. -/
  | text (text : String) (rest : Content)
  /-- A comment, and what follows it. -/
  | comment (comment : String) (rest : Content)
  deriving DecidableEq, Repr, Inhabited

/-- An element of a document. -/
structure Element where
  /-- The name in its tags. -/
  name : String
  /-- Its attributes. -/
  attributes : Attributes
  /-- What stands between its tags. -/
  children : Content
  deriving DecidableEq, Repr

namespace Attributes

/-- The value of the first attribute with a given key. -/
def get? (as : Attributes) (key : String) : Option String :=
  (as.find? (fun a => a.1 == key)).map Prod.snd

/-- Gives the first attribute with a given key a new value, or adds one at the end. -/
def set (as : Attributes) (key value : String) : Attributes :=
  match as with
  | [] => [(key, value)]
  | a :: rest => if a.1 = key then (key, value) :: rest else a :: set rest key value

end Attributes

namespace Content

/-- The nodes of a content followed by those of another. -/
def append : Content → Content → Content
  | nil, d => d
  | element name attributes children rest, d => element name attributes children (rest.append d)
  | text t rest, d => text t (rest.append d)
  | comment t rest, d => comment t (rest.append d)

instance : Append Content := ⟨append⟩

/-- The nodes of a content in reverse order, followed by those of another. Their own contents
stay as they are. -/
def reverseAppend : Content → Content → Content
  | nil, d => d
  | element name attributes children rest, d =>
    rest.reverseAppend (element name attributes children d)
  | text t rest, d => rest.reverseAppend (text t d)
  | comment t rest, d => rest.reverseAppend (comment t d)

/-- The elements directly in a content, in document order. -/
def elements : Content → List Element
  | nil => []
  | element name attributes children rest => ⟨name, attributes, children⟩ :: rest.elements
  | text _ rest => rest.elements
  | comment _ rest => rest.elements

/-- Whether the last node is a text. -/
def endsInText : Content → Bool
  | nil => false
  | element _ _ _ nil => false
  | element _ _ _ rest => rest.endsInText
  | text _ nil => true
  | text _ rest => rest.endsInText
  | comment _ nil => false
  | comment _ rest => rest.endsInText

end Content

namespace Element

/-- An element without attributes and content. -/
def ofName (name : String) : Element := ⟨name, [], .nil⟩

/-- The content that consists of one element. -/
def toContent (e : Element) : Content := .element e.name e.attributes e.children .nil

/-- The value of an attribute. -/
def attribute? (e : Element) (key : String) : Option String := e.attributes.get? key

/-- Gives an attribute a value; a new one comes last. -/
def setAttribute (e : Element) (key value : String) : Element :=
  { e with attributes := e.attributes.set key value }

/-- The elements directly in an element. -/
def childElements (e : Element) : List Element := e.children.elements

end Element
end IntentFirewall.Xml
