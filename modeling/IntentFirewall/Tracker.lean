import IntentFirewall.Component

/-!
# Trackers

A tracker is a component that a signature has matched, together with what the rule file says about
it.

* `Tracker.filterName`: the name by which the rule file knows it.
* `Tracker.le`: the order in which trackers are listed.
-/

namespace IntentFirewall

/-- A component that belongs to a tracking library. -/
structure Tracker where
  /-- The class that implements the component. -/
  componentName : String
  /-- What the component is for. -/
  kind : ComponentKind
  /-- The name of the library. -/
  signatureName : String
  /-- The identifier of the signature, if it has one. -/
  signatureId : Option String
  /-- What the library is for. -/
  category : String
  /-- Whether a blocking rule names the component. -/
  isBlocked : Bool
  /-- Whether that rule logs. -/
  isLogged : Bool
  /-- Whether the component can be started at all. -/
  isEnabled : Bool
  /-- Whether other packages may use it. -/
  isExported : Bool
  deriving DecidableEq, Repr

namespace Tracker

/-- Whether the intent firewall has a rule element for the component. -/
def isBlockable (t : Tracker) : Bool := t.kind != .provider

/-- The name by which the rule file of a package knows a tracker. -/
def filterName (t : Tracker) (packageName : String) : String :=
  packageName ++ "/" ++ t.componentName

/-- The order of trackers: by name, then by kind. -/
def le (a b : Tracker) : Bool :=
  if a.componentName = b.componentName then a.kind.rank ≤ b.kind.rank
  else a.componentName < b.componentName

/-- A tracker with the state that the rule file gives it: whether its rule logs, if there is
one. -/
def withState (t : Tracker) (state : Option Bool) : Tracker :=
  { t with isBlocked := state.isSome, isLogged := state.getD false }

/-- Whether two trackers stand for the same component. -/
def sameComponent (a b : Tracker) : Bool := a.kind == b.kind && a.componentName == b.componentName

end Tracker
end IntentFirewall
