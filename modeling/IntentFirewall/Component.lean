import IntentFirewall.Text.Lowercase
import IntentFirewall.Text.Substring

/-!
# Components of a package

An app package declares its components in four kinds. A component is named by the class that
implements it.

* `ComponentKind`: the four kinds, in the order in which they are listed.
* `Component`, `PackageComponents`: one component, and all those of a package.
* `PackageIdentity`: the package to look up, and the archive to fall back on.
* `isPackageName`: the names that a package may have, none of which leads anywhere as a path.
-/

namespace IntentFirewall

/-- What a component is for. -/
inductive ComponentKind
  /-- A screen. -/
  | activity
  /-- Work in the background. -/
  | service
  /-- A reaction to broadcasts. -/
  | receiver
  /-- A source of data. -/
  | provider
  deriving DecidableEq, Repr, Ord

namespace ComponentKind

/-- The four kinds in their order. -/
def all : List ComponentKind := [.activity, .service, .receiver, .provider]

/-- The place of a kind in that order. -/
def rank : ComponentKind → Nat
  | activity => 0
  | service => 1
  | receiver => 2
  | provider => 3

/-- The name of a kind. -/
def name : ComponentKind → String
  | activity => "activity"
  | service => "service"
  | receiver => "receiver"
  | provider => "provider"

/-- The kind with exactly this name. -/
def ofName? (s : String) : Option ComponentKind := all.find? (fun k => k.name == s)

/-- The kind whose name this is in any case. -/
def ofAnyCase? (s : String) : Option ComponentKind := ofName? (Text.lowercase s)

/-- The wording for a text that names no kind. -/
def unknownMessage (s : String) : String := s!"Unknown component kind: {s}"

end ComponentKind

/-- A component of a package. -/
structure Component where
  /-- What it is for. -/
  kind : ComponentKind
  /-- The class that implements it, with its package. -/
  name : String
  /-- Whether other packages may use it. -/
  exported : Bool
  /-- Whether it can be started at all. -/
  enabled : Bool
  deriving DecidableEq, Repr

/-- Whether a text is a package name: ASCII letters, digits, points and underscores, without two
points side by side. -/
def isPackageName (name : String) : Bool :=
  name != "" && !Text.occursIn ".." name &&
    name.toList.all (fun c => c.isAlphanum || c == '.' || c == '_')

/-- A package to look up. -/
structure PackageIdentity where
  /-- Its name. -/
  packageName : String
  /-- Where its archive is, in case it is not installed. -/
  archivePath : Option String
  deriving DecidableEq, Repr

/-- The components of a package. -/
structure PackageComponents where
  /-- The name that the package gives itself. -/
  packageName : String
  /-- Its components in the order of declaration. -/
  components : List Component
  deriving DecidableEq, Repr

namespace PackageComponents

/-- The number of components of one kind. -/
def count (p : PackageComponents) (kind : ComponentKind) : Nat :=
  p.components.countP (fun c => c.kind == kind)

end PackageComponents
end IntentFirewall
