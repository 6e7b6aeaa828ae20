import IntentFirewall.Rules.RuleElement

/-!
# Rule sets

A rule set is what a rule element says: its tag, its two flags, and the names of its filters as a
set. Sets of names are kept as strictly ascending lists, so that equal sets are equal lists.
-/

namespace IntentFirewall

/-- Sets of names as ascending lists without repetition. -/
abbrev NameSet := List String

namespace NameSet

/-- A set with one more name. -/
def insert (name : String) : NameSet → NameSet
  | [] => [name]
  | n :: rest =>
    if name < n then name :: n :: rest
    else if name = n then n :: rest
    else n :: insert name rest

/-- The set of the names in a list. -/
def ofList (names : List String) : NameSet := names.foldr insert []

end NameSet

/-- What a rule element says. -/
structure RuleSet where
  /-- Which intents it is about. -/
  tag : RuleTag
  /-- Whether they are blocked. -/
  block : Bool
  /-- Whether they are logged. -/
  log : Bool
  /-- The components that it names. -/
  filters : NameSet
  deriving DecidableEq, Repr

namespace RuleSet

/-- What an element says, if it is a rule element. -/
def ofElement? (e : Xml.Element) : Option RuleSet :=
  (RuleTag.ofName? e.name).map fun tag =>
    ⟨tag, e.isBlocking, e.isLogging, NameSet.ofList e.filterNames⟩

/-- The lexicographic order of name sets, ascending lists compared name by name. -/
def filtersLe : NameSet → NameSet → Bool
  | [], _ => true
  | _ :: _, [] => false
  | a :: as, b :: bs => if a = b then filtersLe as bs else a < b

/-- The order of rule sets: by tag, then by flag with set flags last, then by filters. -/
def le (a b : RuleSet) : Bool :=
  if a.tag ≠ b.tag then a.tag.rank ≤ b.tag.rank
  else if a.block ≠ b.block then b.block
  else if a.log ≠ b.log then b.log
  else filtersLe a.filters b.filters

/-- Rule sets in their order. -/
def sorted (sets : List RuleSet) : List RuleSet := sets.mergeSort le

end RuleSet
end IntentFirewall
