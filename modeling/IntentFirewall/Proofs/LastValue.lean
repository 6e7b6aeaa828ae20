import Mathlib.Data.List.Induction
import Mathlib.Logic.Function.Basic

/-!
# The last value of a key

Where later values take the place of earlier ones, the last pair with a key tells its value.

* `lastValue?`: the value of the last pair with a given key.
* `lastValue?_concat`: the pair that comes last counts first.
* `lastValue?_map`: keys and values may be renamed.
-/

namespace IntentFirewall

variable {κ α : Type} [DecidableEq κ]

/-- The value of the last pair with a given key. -/
def lastValue? (key : κ) (pairs : List (κ × α)) : Option α := pairs.reverse.lookup key

@[simp]
theorem lastValue?_nil (key : κ) : lastValue? key ([] : List (κ × α)) = none := rfl

theorem lastValue?_concat (key : κ) (pairs : List (κ × α)) (p : κ × α) :
    lastValue? key (pairs ++ [p]) = if p.1 = key then some p.2 else lastValue? key pairs := by
  rw [lastValue?, List.reverse_concat, List.lookup_cons]
  by_cases h : p.1 = key
  · simp [h]
  · rw [if_neg h, beq_false_of_ne (Ne.symm h)]
    rfl

/-- A key has a last value if it is one of the keys. -/
theorem isSome_lastValue?_iff {key : κ} {pairs : List (κ × α)} :
    (lastValue? key pairs).isSome = true ↔ ∃ p ∈ pairs, p.1 = key := by
  induction pairs using List.reverseRecOn with
  | nil => simp
  | append_singleton pairs p ih =>
    rw [lastValue?_concat]
    split
    next h => exact iff_of_true rfl ⟨p, List.mem_append_right _ List.mem_cons_self, h⟩
    next h => simp [ih, h]

theorem mem_of_lastValue? {key : κ} {value : α} {pairs : List (κ × α)}
    (h : lastValue? key pairs = some value) : (key, value) ∈ pairs := by
  induction pairs using List.reverseRecOn with
  | nil => simp at h
  | append_singleton pairs p ih =>
    rw [lastValue?_concat] at h
    split at h
    next hkey =>
      obtain rfl := Option.some.inj h
      rw [← hkey]
      exact List.mem_append_right _ List.mem_cons_self
    · exact List.mem_append_left _ (ih h)

/-- Renaming keys and values does not change which pair is the last one. -/
theorem lastValue?_map {κ' β : Type} [DecidableEq κ'] {f : κ → κ'} (hf : Function.Injective f)
    (g : α → β) (key : κ) (pairs : List (κ × α)) :
    lastValue? (f key) (pairs.map fun p => (f p.1, g p.2)) = (lastValue? key pairs).map g := by
  induction pairs using List.reverseRecOn with
  | nil => rfl
  | append_singleton pairs p ih =>
    rw [List.map_append, List.map_singleton, lastValue?_concat, lastValue?_concat, ih]
    simp only [hf.eq_iff]
    split <;> rfl

end IntentFirewall
