import IntentFirewall.Text.Lowercase
import IntentFirewall.Text.Substring

/-!
# Parts of texts

* `occursIn_iff`: a text occurs in another exactly if its characters stand side by side there.
* `lowercase_eq_empty_iff`: lower-casing keeps a text from being empty.
-/

namespace IntentFirewall.Text

theorem isPartOf_iff {part cs : List Char} : isPartOf part cs = true ↔ part <:+: cs := by
  induction cs with
  | nil => rw [isPartOf, List.isEmpty_iff, List.infix_nil]
  | cons c cs ih =>
    rw [isPartOf, Bool.or_eq_true, List.isPrefixOf_iff_prefix, ih, List.infix_cons_iff]

/-- A text occurs in another exactly if its characters stand side by side there. -/
theorem occursIn_iff {part text : String} :
    occursIn part text = true ↔ part.toList <:+: text.toList :=
  isPartOf_iff

/-- Only the empty text is empty in lower case. -/
theorem lowercase_eq_empty_iff {s : String} : lowercase s = "" ↔ s = "" := by
  rw [lowercase, ← String.toList_inj, ← String.toList_inj, String.toList_ofList]
  cases s.toList with
  | nil => simp [lowerFrom]
  | cons c cs =>
    -- Every character has a form, even of two characters.
    rw [lowerFrom]
    repeat' split
    all_goals simp

end IntentFirewall.Text
