import IntentFirewall.Text.Blank
import Mathlib.Data.List.DropRight
import Mathlib.Data.List.TakeWhile
import Mathlib.Data.String.Basic

/-!
# Texts without white space at their ends

* `exists_eq_append_trimBoth`, `trimBoth_append`: what trimming leaves, and what it takes.
* `trimBoth_trimBoth`: there is nothing left to trim then.
* `trim_eq_empty_iff`: the texts that are trimmed to nothing.
-/

namespace IntentFirewall.Text

/-- Trimming leaves a word between blank characters. -/
theorem trimBoth_append {p : Char → Bool} {before word after : List Char}
    (hbefore : ∀ c ∈ before, p c = true) (hafter : ∀ c ∈ after, p c = true)
    (hword : ∀ c ∈ word, p c = false) (hne : word ≠ []) :
    trimBoth p (before ++ (word ++ after)) = word := by
  have hkeep {cs : List Char} (hcs : ∀ c ∈ cs, p c = false) (hne : cs ≠ []) (rest : List Char) :
      (cs ++ rest).dropWhile p = cs ++ rest := by
    obtain ⟨c, ds, rfl⟩ := List.exists_cons_of_ne_nil hne
    simp [hcs c List.mem_cons_self]
  have hreverse : ∀ c ∈ after.reverse, p c = true := fun c hc => hafter c (List.mem_reverse.1 hc)
  have hlast := hkeep (fun c hc => hword c (List.mem_reverse.1 hc))
    (mt List.reverse_eq_nil_iff.1 hne) []
  rw [List.append_nil] at hlast
  rw [trimBoth, List.dropWhile_append_of_pos hbefore, hkeep hword hne, List.reverse_append,
    List.dropWhile_append_of_pos hreverse, hlast, List.reverse_reverse]

/-- What trimming leaves is a part of the text, and the rest is blank. -/
theorem exists_eq_append_trimBoth (p : Char → Bool) (cs : List Char) : ∃ before after,
    cs = before ++ (trimBoth p cs ++ after) ∧ (∀ c ∈ before, p c = true) ∧
      ∀ c ∈ after, p c = true := by
  refine ⟨cs.takeWhile p, ((cs.dropWhile p).reverse.takeWhile p).reverse, ?_, ?_, ?_⟩
  · rw [trimBoth, ← List.reverse_append, List.takeWhile_append_dropWhile, List.reverse_reverse,
      List.takeWhile_append_dropWhile]
  · exact fun c hc => List.mem_takeWhile_imp hc
  · exact fun c hc => List.mem_takeWhile_imp (List.mem_reverse.1 hc)

/-- A text whose ends have been trimmed stays as it is when they are trimmed again. -/
theorem trimBoth_trimBoth (p : Char → Bool) (cs : List Char) :
    trimBoth p (trimBoth p cs) = trimBoth p cs := by
  have htrim (ds : List Char) : trimBoth p ds = (ds.dropWhile p).rdropWhile p := rfl
  -- Cutting the end off leaves the first character, which is not one to be cut off.
  have hstart : (trimBoth p cs).dropWhile p = trimBoth p cs := by
    rw [htrim]
    cases h : (cs.dropWhile p).rdropWhile p with
    | nil => rfl
    | cons c ds =>
      obtain ⟨behind, hbehind⟩ := List.rdropWhile_prefix p (l := cs.dropWhile p)
      have hhead := List.head?_dropWhile_not p cs
      rw [← hbehind, h] at hhead
      simp only [List.cons_append, List.head?_cons] at hhead
      rw [List.dropWhile_cons, hhead]
      rfl
  rw [htrim (trimBoth p cs), hstart, htrim, List.rdropWhile_idempotent]

/-- Only a text of blank characters is trimmed to nothing. -/
theorem trim_eq_empty_iff {s : String} : trim s = "" ↔ isBlankText s = true := by
  rw [trim, String.ofList_eq, isBlankText, List.all_eq_true]
  constructor
  · intro h
    obtain ⟨before, after, hs, hbefore, hafter⟩ := exists_eq_append_trimBoth isBlank s.toList
    rw [hs, h]
    intro c hc
    rcases List.mem_append.1 hc with hc | hc
    · exact hbefore c hc
    · exact hafter c hc
  · intro h
    rw [trimBoth, List.dropWhile_eq_nil_iff.2 h]
    rfl

theorem trim_trim (s : String) : trim (trim s) = trim s := by
  rw [trim, trim, String.toList_ofList, trimBoth_trimBoth]

end IntentFirewall.Text
