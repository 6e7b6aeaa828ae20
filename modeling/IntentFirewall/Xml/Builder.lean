import IntentFirewall.Text.Blank
import IntentFirewall.Xml.Content
import IntentFirewall.Xml.Reader

/-!
# From events to the root element

`readRoot` puts the events of a document together to its root element. Attribute values and texts
are unescaped; a text of white space only is dropped, as are comments outside the root element.

* `Builder` is what is known between two events: the open elements, and the root element once it
  has been closed.
* `Builder.push` takes one event. What it refuses, it refuses before any later event is looked at.
-/

namespace IntentFirewall.Xml

/-- Why a document has no root element. -/
inductive ParseError
  /-- The markup cannot be read. -/
  | markup (fault : SyntaxFault)
  /-- An attribute is ill-formed. -/
  | badAttribute (cause : AttributeError)
  /-- A text cannot be unescaped. -/
  | badText (cause : EntityError)
  /-- An element ends that was not open. -/
  | unbalancedEnd
  /-- A second element stands beside the root element. -/
  | secondRoot
  /-- A text stands outside the root element. -/
  | textOutside
  /-- The document ends inside an element. -/
  | unclosed (name : String)
  /-- There is no element. -/
  | noRoot
  deriving DecidableEq, Repr

/-- The wording of a parse error. -/
def ParseError.message : ParseError → String
  | .markup fault => s!"{fault.error.message} at byte {fault.consumed}"
  | .badAttribute cause => cause.message
  | .badText cause => cause.message
  | .unbalancedEnd => "unbalanced end tag"
  | .secondRoot => "multiple root elements"
  | .textOutside => "text outside the root element"
  | .unclosed name => s!"unclosed element <{name}>"
  | .noRoot => "document has no root element"

/-- An element whose end tag has not been read. -/
structure OpenElement where
  /-- Its name. -/
  name : String
  /-- Its attributes. -/
  attributes : Attributes
  /-- Its nodes so far, newest first. -/
  nodes : Content
  deriving DecidableEq, Repr

/-- What is known of a document between two events. -/
structure Builder where
  /-- The open elements, innermost first. -/
  stack : List OpenElement
  /-- The root element, once it has been closed. -/
  root : Option Element
  deriving DecidableEq, Repr

namespace Builder

/-- Nothing has been read. -/
def empty : Builder := ⟨[], none⟩

/-- Adds a node to the innermost open element; `node` puts it before the older nodes. -/
def addNode (b : Builder) (node : Content → Content) : Option Builder :=
  match b.stack with
  | [] => none
  | e :: outer => some { b with stack := { e with nodes := node e.nodes } :: outer }

/-- Adds a complete element, which is the root element if no element is open. -/
def attach (b : Builder) (e : Element) : Except ParseError Builder :=
  match b.addNode (.element e.name e.attributes e.children) with
  | some b' => .ok b'
  | none =>
    match b.root with
    | none => .ok { b with root := some e }
    | some _ => .error .secondRoot

/-- Adds a text. -/
def addText (b : Builder) (t : String) : Except ParseError Builder :=
  if Text.isBlankText t then .ok b
  else
    match b.addNode (.text t) with
    | some b' => .ok b'
    | none => .error .textOutside

/-- The attributes of a tag with their values. -/
def readAttributes (s : Scan AttributeError RawAttribute) : Except ParseError Attributes :=
  match s.items.mapM (fun a => a.text.map fun value => (String.ofList a.key, value)) with
  | .error e => .error (.badAttribute e)
  | .ok as =>
    match s.failure with
    | some e => .error (.badAttribute e)
    | none => .ok as

/-- Takes one event. -/
def push (b : Builder) : Event → Except ParseError Builder
  | .opened tag => do
    let attributes ← readAttributes tag.attributes
    .ok { b with stack := ⟨String.ofList tag.name, attributes, .nil⟩ :: b.stack }
  | .selfClosed tag => do
    let attributes ← readAttributes tag.attributes
    b.attach ⟨String.ofList tag.name, attributes, .nil⟩
  | .closed =>
    match b.stack with
    | [] => .error .unbalancedEnd
    | e :: outer =>
      { b with stack := outer }.attach ⟨e.name, e.attributes, e.nodes.reverseAppend .nil⟩
  | .text raw =>
    match unescape raw with
    | .error e => .error (.badText e)
    | .ok cs => b.addText (String.ofList cs)
  | .characterData content => b.addText (String.ofList content)
  | .comment content => .ok ((b.addNode (.comment (String.ofList content))).getD b)
  | .ignored => .ok b

/-- The root element at the end of a document. -/
def finish (b : Builder) : Except ParseError Element :=
  match b.stack, b.root with
  | e :: _, _ => .error (.unclosed e.name)
  | [], none => .error .noRoot
  | [], some root => .ok root

end Builder

/-- The root element of a document. -/
def readRoot (document : String) : Except ParseError Element := do
  let scan := events document
  let b ← scan.items.foldlM Builder.push Builder.empty
  match scan.failure with
  | some fault => .error (.markup fault)
  | none => b.finish

end IntentFirewall.Xml
