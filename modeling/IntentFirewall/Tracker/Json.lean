import IntentFirewall.Json.Decode
import IntentFirewall.Json.Printer
import IntentFirewall.Signature.Basic
import IntentFirewall.Tracker

/-!
# Records of the domain in JSON

How components, packages, signatures and trackers are written as JSON and decoded from it. What is
written is an object with all fields in their order.
-/

namespace IntentFirewall

open Json

/-- Decodes a kind. -/
def ComponentKind.decoder : Decoder ComponentKind := choice ComponentKind.ofName?

/-- A kind as JSON. -/
def ComponentKind.toJson (k : ComponentKind) : Value := .text k.name

/-- Decodes a component. -/
def Component.decoder : Decoder Component := fun t => do
  let fields : List Field :=
    [.of "kind" ComponentKind.decoder, .of "name" text, .of "exported" flag, .of "enabled" flag]
  let r ← readRecord fields t
  let kind ← r.required "kind" ComponentKind.decoder
  let name ← r.required "name" text
  let exported ← r.required "exported" flag
  let enabled ← r.required "enabled" flag
  .ok ⟨kind, name, exported, enabled⟩

/-- A component as JSON. -/
def Component.toJson (c : Component) : Value :=
  .object [("kind", c.kind.toJson), ("name", .text c.name), ("exported", .flag c.exported),
    ("enabled", .flag c.enabled)]

/-- Decodes the identity of a package. -/
def PackageIdentity.decoder : Decoder PackageIdentity := fun t => do
  let r ← readRecord [.of "package_name" text, .of "archive_path" (optional text)] t
  let packageName ← r.required "package_name" text
  let archivePath ← r.getD "archive_path" (optional text) none
  .ok ⟨packageName, archivePath⟩

/-- The identity of a package as JSON. -/
def PackageIdentity.toJson (p : PackageIdentity) : Value :=
  .object [("package_name", .text p.packageName), ("archive_path", .ofText? p.archivePath)]

/-- Decodes the components of a package. -/
def PackageComponents.decoder : Decoder PackageComponents := fun t => do
  let r ← readRecord [.of "package_name" text, .of "components" (list Component.decoder)] t
  let packageName ← r.required "package_name" text
  let components ← r.required "components" (list Component.decoder)
  .ok ⟨packageName, components⟩

/-- The components of a package as JSON. -/
def PackageComponents.toJson (p : PackageComponents) : Value :=
  .object [("package_name", .text p.packageName),
    ("components", .array (p.components.map Component.toJson))]

/-- Decodes a signature as it is kept, without looking at its patterns. -/
def Signature.decoder : Decoder Signature := fun t => do
  let fields : List Field :=
    [.of "id" (optional text), .of "name" text, .of "patterns" (list text),
      .of "category" text, .of "website" (optional text)]
  let r ← readRecord fields t
  let id ← r.getD "id" (optional text) none
  let name ← r.required "name" text
  let patterns ← r.required "patterns" (list text)
  let category ← r.required "category" text
  let website ← r.getD "website" (optional text) none
  .ok ⟨id, name, patterns, category, website⟩

/-- A signature as JSON. -/
def Signature.toJson (s : Signature) : Value :=
  .object [("id", .ofText? s.id), ("name", .text s.name), ("patterns", .ofTexts s.patterns),
    ("category", .text s.category), ("website", .ofText? s.website)]

/-- Decodes a tracker. -/
def Tracker.decoder : Decoder Tracker := fun t => do
  let fields : List Field :=
    [.of "component_name" text, .of "kind" ComponentKind.decoder, .of "signature_name" text,
      .of "signature_id" (optional text), .of "category" text, .of "is_blocked" flag,
      .of "is_logged" flag, .of "is_enabled" flag, .of "is_exported" flag]
  let r ← readRecord fields t
  let componentName ← r.required "component_name" text
  let kind ← r.required "kind" ComponentKind.decoder
  let signatureName ← r.required "signature_name" text
  let signatureId ← r.getD "signature_id" (optional text) none
  let category ← r.required "category" text
  let isBlocked ← r.required "is_blocked" flag
  let isLogged ← r.required "is_logged" flag
  let isEnabled ← r.required "is_enabled" flag
  let isExported ← r.required "is_exported" flag
  .ok ⟨componentName, kind, signatureName, signatureId, category, isBlocked, isLogged, isEnabled,
    isExported⟩

/-- A tracker as JSON. -/
def Tracker.toJson (t : Tracker) : Value :=
  .object [("component_name", .text t.componentName), ("kind", t.kind.toJson),
    ("signature_name", .text t.signatureName), ("signature_id", .ofText? t.signatureId),
    ("category", .text t.category), ("is_blocked", .flag t.isBlocked),
    ("is_logged", .flag t.isLogged), ("is_enabled", .flag t.isEnabled),
    ("is_exported", .flag t.isExported)]

end IntentFirewall
