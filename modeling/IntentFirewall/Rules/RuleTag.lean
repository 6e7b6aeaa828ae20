import IntentFirewall.Component

/-!
# Rule tags

A rule file has one element for each way of starting a component. There is none for providers,
which the intent firewall does not filter.
-/

namespace IntentFirewall

/-- The rule elements of the intent firewall. -/
inductive RuleTag
  /-- Intents that start an activity. -/
  | activity
  /-- Intents that start or bind a service. -/
  | service
  /-- Intents that are broadcast. -/
  | broadcast
  deriving DecidableEq, Repr, Ord

namespace RuleTag

/-- The tags in their order. -/
def all : List RuleTag := [.activity, .service, .broadcast]

/-- The place of a tag in that order. -/
def rank : RuleTag → Nat
  | activity => 0
  | service => 1
  | broadcast => 2

/-- The name of the element. -/
def name : RuleTag → String
  | activity => "activity"
  | service => "service"
  | broadcast => "broadcast"

/-- The tag with exactly this name. -/
def ofName? (s : String) : Option RuleTag := all.find? (fun t => t.name == s)

/-- The wording for a text that is no tag. -/
def unknownMessage (s : String) : String := s!"Unknown rule tag: {s}"

/-- The element that filters components of a kind. -/
def forKind? : ComponentKind → Option RuleTag
  | .activity => some activity
  | .service => some service
  | .receiver => some broadcast
  | .provider => none

/-- Tags have different names. -/
theorem name_injective {s t : RuleTag} (h : s.name = t.name) : s = t := by
  cases s <;> cases t <;> first | rfl | simp [name] at h

/-- A tag is found by its name, and by no other text. -/
theorem ofName?_eq_some_iff {s : String} {t : RuleTag} : ofName? s = some t ↔ s = t.name := by
  constructor
  · intro h
    have := List.find?_some h
    exact (eq_of_beq this).symm
  · rintro rfl
    cases t <;> rfl

end RuleTag
end IntentFirewall
