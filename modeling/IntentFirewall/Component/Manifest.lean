import IntentFirewall.Component
import IntentFirewall.Text.Blank
import IntentFirewall.Xml.Reader

/-!
# Manifests

A manifest is an XML document. Its `manifest` element names the package, its `application` element
can disable all components, and an element named after a kind declares a component. Only the part
of a name behind its namespace counts, and where the elements stand does not matter.

* `Outline` is what is known between two events, and `Outline.push` takes one event.
* `readManifest` gives the components of a package.
-/

namespace IntentFirewall

/-- Why a text is no manifest. -/
inductive ManifestError
  /-- The markup cannot be read. -/
  | markup (cause : Xml.SyntaxError)
  /-- An attribute that was looked for, or one before it, is ill-formed. -/
  | badAttribute (cause : Xml.AttributeError)
  /-- No `manifest` element names the package. -/
  | noPackage
  deriving DecidableEq, Repr

/-- The wording of a manifest error. -/
def ManifestError.message : ManifestError → String
  | .markup cause => cause.message
  | .badAttribute cause => cause.message
  | .noPackage => "manifest has no package attribute"

namespace Manifest

/-- The value of the first attribute with a given local name. What stands behind that attribute is
not looked at. -/
def lookUp (name : String) (attributes : Scan Xml.AttributeError Xml.RawAttribute) :
    Except ManifestError (Option String) :=
  match attributes.items.find? (fun a => Xml.localName a.key == name.toList) with
  | some a =>
    match a.text with
    | .ok value => .ok (some value)
    | .error e => .error (.badAttribute e)
  | none =>
    match attributes.failure with
    | some e => .error (.badAttribute e)
    | none => .ok none

/-- A component as it is declared. -/
structure Declaration where
  /-- What the component is for. -/
  kind : ComponentKind
  /-- The class, perhaps without its package. -/
  name : String
  /-- Whether other packages may use it, if that is said. -/
  exported : Option Bool
  /-- Whether it can be started, if that is said. -/
  enabled : Option Bool
  deriving DecidableEq, Repr

/-- What is known of a manifest between two events. -/
structure Outline where
  /-- The package that the last `manifest` element names. -/
  packageName : Option String
  /-- Whether the components can be started at all. -/
  applicationEnabled : Bool
  /-- The components declared so far, newest first. -/
  declared : List Declaration
  deriving DecidableEq, Repr

namespace Outline

/-- Nothing has been read. -/
def empty : Outline := ⟨none, true, []⟩

/-- Takes the declaration of a component. One without a name is passed over. -/
def declare (o : Outline) (kind : ComponentKind)
    (attributes : Scan Xml.AttributeError Xml.RawAttribute) :
    Except ManifestError Outline := do
  match ← lookUp "name" attributes with
  | none => .ok o
  | some name =>
    let exported ← lookUp "exported" attributes
    let enabled ← lookUp "enabled" attributes
    let declaration : Declaration :=
      ⟨kind, name, exported.map Text.spellsTrue, enabled.map Text.spellsTrue⟩
    .ok { o with declared := declaration :: o.declared }

/-- Takes a start tag. -/
def pushTag (o : Outline) (tag : Xml.Tag) : Except ManifestError Outline := do
  let name := String.ofList (Xml.localName tag.name)
  if name = "manifest" then
    let packageName ← lookUp "package" tag.attributes
    .ok { o with packageName }
  else if name = "application" then
    match ← lookUp "enabled" tag.attributes with
    | none => .ok o
    | some enabled => .ok { o with applicationEnabled := Text.spellsTrue enabled }
  else
    match ComponentKind.ofAnyCase? name with
    | none => .ok o
    | some kind => o.declare kind tag.attributes

/-- Takes one event; only start tags matter. -/
def push (o : Outline) : Xml.Event → Except ManifestError Outline
  | .opened tag => o.pushTag tag
  | .selfClosed tag => o.pushTag tag
  | _ => .ok o

end Outline

/-- The full name of a class. A name that begins with a point or has none belongs to the
package. -/
def qualify (packageName name : String) : String :=
  if name.toList.head? = some '.' then packageName ++ name
  else if name.toList.contains '.' then name
  else packageName ++ "." ++ name

/-- The component that a declaration means in a package. -/
def Declaration.toComponent (packageName : String) (applicationEnabled : Bool)
    (d : Declaration) : Component where
  kind := d.kind
  name := qualify packageName d.name
  exported := d.exported.getD false
  enabled := applicationEnabled && d.enabled.getD true

/-- The components that have been declared at the end of a manifest. -/
def Outline.finish (o : Outline) : Except ManifestError PackageComponents :=
  match o.packageName with
  | none => .error .noPackage
  | some packageName =>
    .ok ⟨packageName,
      o.declared.reverse.map (·.toComponent packageName o.applicationEnabled)⟩

end Manifest

open Manifest in
/-- The components that a manifest declares. -/
def readManifest (document : String) : Except ManifestError PackageComponents := do
  let scan := Xml.events document
  let o ← scan.items.foldlM Outline.push Outline.empty
  match scan.failure with
  | some fault => .error (.markup fault.error)
  | none => o.finish

end IntentFirewall
