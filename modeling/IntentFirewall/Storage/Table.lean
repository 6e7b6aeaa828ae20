/-!
# Tables

A table holds values by their keys. A new value for a key takes the place of the old one; a new key
comes last.

* `lookup_put_self`, `lookup_put_of_ne`: what is found after a value has been put in.
-/

namespace IntentFirewall

/-- Values by their keys. -/
abbrev Table (κ α : Type) := List (κ × α)

namespace Table

variable {κ α : Type} [BEq κ]

/-- The table with a new value for a key. -/
def put (key : κ) (value : α) : Table κ α → Table κ α
  | [] => [(key, value)]
  | p :: rest => if p.1 == key then (key, value) :: rest else p :: put key value rest

variable [LawfulBEq κ]

@[simp]
theorem lookup_put_self (key : κ) (value : α) (t : Table κ α) :
    (put key value t).lookup key = some value := by
  induction t with
  | nil => simp [put]
  | cons p rest ih =>
    obtain ⟨k, v⟩ := p
    rw [put]
    split
    · simp
    next hk =>
      have hne : key ≠ k := fun h => hk (beq_iff_eq.2 h.symm)
      simp [List.lookup_cons, ih, beq_eq_false_iff_ne.2 hne]

theorem lookup_put_of_ne {key other : κ} (h : other ≠ key) (value : α) (t : Table κ α) :
    (put key value t).lookup other = t.lookup other := by
  induction t with
  | nil => simp [put, List.lookup_cons, beq_eq_false_iff_ne.2 h]
  | cons p rest ih =>
    obtain ⟨k, v⟩ := p
    rw [put]
    split
    next hk =>
      obtain rfl : k = key := beq_iff_eq.1 hk
      simp [List.lookup_cons, beq_eq_false_iff_ne.2 h]
    · simp [List.lookup_cons, ih]

end Table
end IntentFirewall
