import IntentFirewall.Rules.RuleSet
import IntentFirewall.Xml.Builder
import IntentFirewall.Xml.Printer

/-!
# The rule document

The rule file of a package is an XML document with the root element `rules`. Everything in it
that has no meaning here is kept and written back as it was.

## Main definitions

* `Document.parse`, `Document.ofBytes`: reading; a blank file is an empty document.
* `Document.toXml`, `Document.toBytes`: writing.
* `Document.ruleSets`: what the rule elements directly under the root say.
* `Document.removeFilters`, `Document.addBlockFilter`, `Document.block`: the edits.
* `Document.blockingState`: whether a component is blocked, and whether that is logged.
-/

namespace IntentFirewall

/-- A rule document, whose root element is always named `rules`. -/
structure Document where
  /-- The attributes of the root element. -/
  attributes : Xml.Attributes
  /-- What stands in the root element. -/
  content : Xml.Content
  deriving DecidableEq, Repr

/-- Why a file is no rule document. -/
inductive DocumentError
  /-- The bytes are no text. -/
  | encoding (cause : Utf8.Error)
  /-- The text has no root element. -/
  | markup (cause : Xml.ParseError)
  /-- The root element has another name. -/
  | otherRoot (name : String)
  deriving DecidableEq, Repr

namespace Document

/-- The name of the root element. -/
def rootTag : String := "rules"

end Document

/-- The wording of a document error. -/
def DocumentError.message : DocumentError → String
  | .encoding cause => s!"rules file is not UTF-8: {cause.message}"
  | .markup cause => cause.message
  | .otherRoot name => s!"root element is <{name}>, expected <{Document.rootTag}>"

namespace Document

/-- The document without rules. -/
def empty : Document := ⟨[], .nil⟩

/-- The root element. -/
def root (d : Document) : Xml.Element := ⟨rootTag, d.attributes, d.content⟩

/-- The document that a text describes. A blank text describes the empty one. -/
def parse (xml : String) : Except DocumentError Document :=
  if Text.isBlankText xml then .ok empty
  else
    match Xml.readRoot xml with
    | .error e => .error (.markup e)
    | .ok root =>
      if root.name = rootTag then .ok ⟨root.attributes, root.children⟩
      else .error (.otherRoot root.name)

/-- The document in the bytes of a file. -/
def ofBytes (bytes : List UInt8) : Except DocumentError Document :=
  match Utf8.decodeString bytes with
  | .error e => .error (.encoding e)
  | .ok xml => parse xml

/-- The text of a document. -/
def toXml (d : Document) : String := String.ofList d.root.print

/-- The bytes of a document. -/
def toBytes (d : Document) : List UInt8 := Utf8.encode d.root.print

/-- What the rule elements directly under the root say, in document order. -/
def ruleSets (d : Document) : List RuleSet := d.content.elements.filterMap RuleSet.ofElement?

/-- The number of filters of a given name, at any depth. -/
def filterCount (d : Document) (filter : String) : Nat := d.content.filterCount filter

/-- Takes out every filter of a given name. -/
def withoutFilters (d : Document) (filter : String) : Document :=
  { d with content := d.content.withoutFilters filter }

/-- The number of filters that `withoutFilters` takes out. -/
def removedCount (d : Document) (filter : String) : Nat := d.content.removedCount filter

/-- Puts a filter under the first blocking element of a tag, or under a new one. -/
def addBlockFilter (d : Document) (tag : RuleTag) (filter : String) : Document :=
  { d with content := d.content.addBlockFilter tag filter }

/-- Blocks a component: its filter is taken out wherever it stands, and put under a blocking
element of the tag. -/
def block (d : Document) (tag : RuleTag) (filter : String) : Document :=
  (d.withoutFilters filter).addBlockFilter tag filter

/-- Whether the first blocking element of a tag that names a filter logs; nothing if none does. -/
def blockingState (d : Document) (tag : RuleTag) (filter : String) : Option Bool :=
  (d.content.elements.find? fun e =>
    e.isRule tag && e.isBlocking && e.filterNames.contains filter).map (·.isLogging)

end Document
end IntentFirewall
