/-!
# Slots

A slot holds the latest of the values that are published in it. It counts the publications, so that
whoever looks at it again can tell whether there has been one in between, even of an equal value.

* `Slot.put`, `Slot.clear`: replace the value, whatever it was.
* `Slot.update`: changes the value, or leaves the slot as it is.
-/

namespace IntentFirewall

/-- A place for the latest value. -/
structure Slot (α : Type) where
  /-- The latest value, if there is one. -/
  value : Option α
  /-- The number of publications. -/
  version : Nat
  deriving DecidableEq, Repr

namespace Slot

variable {α : Type}

/-- A slot in which nothing has been published. -/
def empty : Slot α := ⟨none, 0⟩

/-- Publishes a value. -/
def put (s : Slot α) (a : α) : Slot α := ⟨some a, s.version + 1⟩

/-- Takes the value away, which is a publication, too. -/
def clear (s : Slot α) : Slot α := ⟨none, s.version + 1⟩

/-- Publishes what `change?` makes of the value, if it makes anything of it. -/
def update (s : Slot α) (change? : α → Option α) : Slot α :=
  match s.value.bind change? with
  | some a => s.put a
  | none => s

@[simp]
theorem value_put (s : Slot α) (a : α) : (s.put a).value = some a := rfl

@[simp]
theorem value_clear (s : Slot α) : s.clear.value = none := rfl

end Slot
end IntentFirewall
