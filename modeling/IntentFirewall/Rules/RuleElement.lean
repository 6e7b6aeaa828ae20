import IntentFirewall.Rules.RuleTag
import IntentFirewall.Text.Blank
import IntentFirewall.Xml.Content

/-!
# Rule elements

The elements of a rule file that have a meaning here: an element named by a `RuleTag`, whose
attributes `block` and `log` are flags, and the `component-filter` elements directly in it, each
of which names one component.

* `Content.filterCount`, `Content.withoutFilters`, `Content.removedCount`: the filters of one name
  at any depth of a content.
* `Content.addBlockFilter`: a filter put under the first blocking element of a tag.
-/

namespace IntentFirewall.Xml

namespace Element

/-- The name of the elements that name a component. -/
def filterTag : String := "component-filter"

/-- The attribute that holds the name of a filter. -/
def nameKey : String := "name"

/-- The attribute that tells whether a rule element blocks. -/
def blockKey : String := "block"

/-- The attribute that tells whether a rule element logs. -/
def logKey : String := "log"

/-- Whether an attribute is there and spells `true`. -/
def flag (e : Element) (key : String) : Bool := (e.attribute? key).any Text.spellsTrue

/-- Whether the intents that an element matches are blocked. -/
def isBlocking (e : Element) : Bool := e.flag blockKey

/-- Whether the intents that an element matches are logged. -/
def isLogging (e : Element) : Bool := e.flag logKey

/-- Whether an element is the rule element of a tag. -/
def isRule (e : Element) (tag : RuleTag) : Bool := e.name == tag.name

/-- Whether an element is a filter of a given name. -/
def isFilter (e : Element) (filter : String) : Bool :=
  e.name == filterTag && e.attribute? nameKey == some filter

/-- The names of the filters directly in an element, in document order. -/
def filterNames (e : Element) : List String :=
  (e.childElements.filter (fun c => c.name == filterTag)).filterMap
    (fun c => c.attribute? nameKey)

end Element

namespace Content

open Element

/-- The content that consists of one filter. -/
def ofFilter (filter : String) : Content := .element filterTag [(nameKey, filter)] nil nil

/-- The number of filters of a given name at any depth. -/
def filterCount (filter : String) : Content → Nat
  | nil => 0
  | element name attributes children rest =>
    (if isFilter ⟨name, attributes, children⟩ filter then 1 else 0) +
      children.filterCount filter + rest.filterCount filter
  | text _ rest => rest.filterCount filter
  | comment _ rest => rest.filterCount filter

/-- The content without the filters of a given name, at any depth. A filter goes with all that it
contains. -/
def withoutFilters (filter : String) : Content → Content
  | nil => nil
  | element name attributes children rest =>
    if isFilter ⟨name, attributes, children⟩ filter then rest.withoutFilters filter
    else
      element name attributes (children.withoutFilters filter) (rest.withoutFilters filter)
  | text t rest => text t (rest.withoutFilters filter)
  | comment t rest => comment t (rest.withoutFilters filter)

/-- The number of filters that `withoutFilters` takes out. Those inside a filter that goes anyway
are not counted. -/
def removedCount (filter : String) : Content → Nat
  | nil => 0
  | element name attributes children rest =>
    (if isFilter ⟨name, attributes, children⟩ filter then 1 else children.removedCount filter) +
      rest.removedCount filter
  | text _ rest => rest.removedCount filter
  | comment _ rest => rest.removedCount filter

/-- Adds a filter at the end of the first blocking element of a tag, which no longer logs. Without
such an element a new one is added at the end. -/
def addBlockFilter (tag : RuleTag) (filter : String) : Content → Content
  | nil => element tag.name [(blockKey, "true"), (logKey, "false")] (ofFilter filter) nil
  | element name attributes children rest =>
    if isRule ⟨name, attributes, children⟩ tag && isBlocking ⟨name, attributes, children⟩ then
      element name (attributes.set logKey "false") (children.append (ofFilter filter)) rest
    else element name attributes children (rest.addBlockFilter tag filter)
  | text t rest => text t (rest.addBlockFilter tag filter)
  | comment t rest => comment t (rest.addBlockFilter tag filter)

end Content
end IntentFirewall.Xml
