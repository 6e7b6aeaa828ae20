import IntentFirewall.Signature.Database
import IntentFirewall.Tracker

/-!
# Finding trackers

The components of a package whose class names a signature matches.

* `SignatureDatabase.report`: the trackers of a package, each component once, filtered by a keyword
  and sorted by name and kind.
-/

namespace IntentFirewall

/-- The tracker that a component is, if a signature matches it. -/
def Tracker.ofMatch (c : Component) (s : Signature) : Tracker where
  componentName := c.name
  kind := c.kind
  signatureName := s.name
  signatureId := s.id
  category := s.category
  isBlocked := false
  isLogged := false
  isEnabled := c.enabled
  isExported := c.exported

/-- Whether a keyword in lower case occurs in the name, the category or the library of a
tracker. -/
def Tracker.mentions (t : Tracker) (keyword : String) : Bool :=
  Text.occursIn keyword (Text.lowercase t.componentName) ||
    Text.occursIn keyword (Text.lowercase t.category) ||
    Text.occursIn keyword (Text.lowercase t.signatureName)

/-- What a look at the components of a package has brought. -/
structure MatchReport where
  /-- The trackers that the keyword lets through. -/
  trackers : List Tracker
  /-- The number of components looked at. -/
  scanned : Nat
  /-- The number of trackers without the keyword. -/
  matched : Nat
  deriving DecidableEq, Repr

/-- What tells two components apart: kind and name. -/
def Component.key (c : Component) : ComponentKind × String := (c.kind, c.name)

namespace SignatureDatabase

/-- The trackers among components, each kind and name once, in the order of declaration. -/
def found (db : SignatureDatabase) (components : List Component) : List Tracker :=
  (distinctBy Component.key [] components).filterMap fun c => (db.lookup c.name).map (.ofMatch c)

/-- The trackers that a keyword lets through; the empty one lets all of them through. -/
def filterBy (keyword : String) (trackers : List Tracker) : List Tracker :=
  if Text.lowercase keyword = "" then trackers
  else trackers.filter (·.mentions (Text.lowercase keyword))

/-- The trackers among components, filtered by a keyword and sorted. -/
def report (db : SignatureDatabase) (components : List Component) (keyword : String) :
    MatchReport where
  trackers := (filterBy keyword (db.found components)).mergeSort Tracker.le
  scanned := components.length
  matched := (db.found components).length

end SignatureDatabase
end IntentFirewall
