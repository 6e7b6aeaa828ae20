import IntentFirewall.Text.Blank
import IntentFirewall.Xml.Attribute
import Mathlib.Data.List.Induction

/-!
# Escaped texts

Escaping can be undone, and it leaves white space where it is.

* `unescape_escape`: an escaped text is read back as the text.
* `not_mem_escape`: no angle bracket and no quote is left in an escaped text.
* `skipSpace_escape`, `trimEnd_escape`: cutting white space from the ends of an escaped text is
  cutting it from the ends of the text.
-/

namespace IntentFirewall.Xml

/-! ## Characters of an escaped text -/

/-- The characters that are written as entities. -/
def isMarkup (c : Char) : Bool := c == '<' || c == '>' || c == '&' || c == '\'' || c == '"'

theorem escapeChar_of_not_isMarkup {c : Char} (h : isMarkup c = false) : escapeChar c = [c] := by
  rw [escapeChar.eq_def]
  split <;> first | rfl | simp [isMarkup] at h

/-- What is written for a markup character. -/
theorem escapeChar_of_isMarkup {c : Char} (h : isMarkup c = true) :
    c = '<' ∧ escapeChar c = ['&', 'l', 't', ';'] ∨
      c = '>' ∧ escapeChar c = ['&', 'g', 't', ';'] ∨
      c = '&' ∧ escapeChar c = ['&', 'a', 'm', 'p', ';'] ∨
      c = '\'' ∧ escapeChar c = ['&', 'a', 'p', 'o', 's', ';'] ∨
      c = '"' ∧ escapeChar c = ['&', 'q', 'u', 'o', 't', ';'] := by
  simp only [isMarkup, Bool.or_eq_true, beq_iff_eq] at h
  rcases h with (((rfl | rfl) | rfl) | rfl) | rfl
  · exact .inl ⟨rfl, rfl⟩
  · exact .inr (.inl ⟨rfl, rfl⟩)
  · exact .inr (.inr (.inl ⟨rfl, rfl⟩))
  · exact .inr (.inr (.inr (.inl ⟨rfl, rfl⟩)))
  · exact .inr (.inr (.inr (.inr ⟨rfl, rfl⟩)))

@[simp]
theorem escape_nil : escape [] = [] := rfl

@[simp]
theorem escape_cons (c : Char) (cs : List Char) : escape (c :: cs) = escapeChar c ++ escape cs :=
  rfl

@[simp]
theorem escape_append (cs ds : List Char) : escape (cs ++ ds) = escape cs ++ escape ds :=
  List.flatMap_append

/-- Of the markup characters only the ampersand is left in an escaped text. -/
theorem not_mem_escape {c : Char} (hc : isMarkup c = true) (hamp : c ≠ '&') (cs : List Char) :
    c ∉ escape cs := by
  intro hmem
  obtain ⟨d, -, hd⟩ := List.mem_flatMap.1 hmem
  by_cases h : isMarkup d = true
  · -- An entity holds letters, an ampersand and a semicolon.
    rcases escapeChar_of_isMarkup h with ⟨-, he⟩ | ⟨-, he⟩ | ⟨-, he⟩ | ⟨-, he⟩ | ⟨-, he⟩ <;>
      rw [he] at hd <;> simp only [List.mem_cons, List.not_mem_nil, or_false] at hd <;>
      rcases hd with rfl | rfl | rfl | rfl | rfl | rfl <;> simp_all [isMarkup]
  · rw [escapeChar_of_not_isMarkup (by simpa using h), List.mem_singleton] at hd
    exact h (hd ▸ hc)

/-- An escaped text ends where such a character comes for the first time. -/
theorem span_escape {c : Char} (hc : isMarkup c = true) (hamp : c ≠ '&') (cs rest : List Char) :
    (escape cs ++ c :: rest).takeWhile (· != c) = escape cs ∧
      (escape cs ++ c :: rest).dropWhile (· != c) = c :: rest := by
  have hcs : ∀ d ∈ escape cs, (d != c) = true := by
    intro d hd
    rw [bne_iff_ne]
    rintro rfl
    exact not_mem_escape hc hamp cs hd
  rw [List.takeWhile_append_of_pos hcs, List.dropWhile_append_of_pos hcs]
  simp

/-! ## White space at the ends -/

theorem escapeChar_of_isSpace {c : Char} (h : isSpace c = true) : escapeChar c = [c] := by
  refine escapeChar_of_not_isMarkup ?_
  simp only [isSpace, Bool.or_eq_true, beq_iff_eq] at h
  rcases h with ((rfl | rfl) | rfl) | rfl <;> rfl

/-- What is written for a character that is no white space neither begins nor ends with white
space. -/
theorem escapeChar_eq_of_not_isSpace {c : Char} (h : isSpace c = false) :
    (∃ d ds, escapeChar c = d :: ds ∧ isSpace d = false) ∧
      ∃ ds d, escapeChar c = ds ++ [d] ∧ isSpace d = false := by
  by_cases hc : isMarkup c = true
  · rcases escapeChar_of_isMarkup hc with ⟨-, he⟩ | ⟨-, he⟩ | ⟨-, he⟩ | ⟨-, he⟩ | ⟨-, he⟩ <;>
      rw [he]
    · exact ⟨⟨_, _, rfl, rfl⟩, ['&', 'l', 't'], _, rfl, rfl⟩
    · exact ⟨⟨_, _, rfl, rfl⟩, ['&', 'g', 't'], _, rfl, rfl⟩
    · exact ⟨⟨_, _, rfl, rfl⟩, ['&', 'a', 'm', 'p'], _, rfl, rfl⟩
    · exact ⟨⟨_, _, rfl, rfl⟩, ['&', 'a', 'p', 'o', 's'], _, rfl, rfl⟩
    · exact ⟨⟨_, _, rfl, rfl⟩, ['&', 'q', 'u', 'o', 't'], _, rfl, rfl⟩
  · rw [escapeChar_of_not_isMarkup (by simpa using hc)]
    exact ⟨⟨c, [], rfl, h⟩, [], c, rfl, h⟩

/-- Something is written for every character. -/
theorem escape_ne_nil {cs : List Char} (h : cs ≠ []) : escape cs ≠ [] := by
  obtain ⟨c, cs, rfl⟩ := List.exists_cons_of_ne_nil h
  rw [escape_cons]
  by_cases hc : isSpace c = true
  · simp [escapeChar_of_isSpace hc]
  · obtain ⟨⟨d, ds, hd, -⟩, -⟩ := escapeChar_eq_of_not_isSpace (by simpa using hc)
    simp [hd]

/-- White space at the start of an escaped text is white space at the start of the text. -/
theorem skipSpace_escape (cs : List Char) : skipSpace (escape cs) = escape (skipSpace cs) := by
  induction cs with
  | nil => rfl
  | cons c cs ih =>
    by_cases hc : isSpace c = true
    · rw [escape_cons, escapeChar_of_isSpace hc]
      simpa [skipSpace, List.dropWhile_cons, hc] using ih
    · obtain ⟨⟨d, ds, hd, hspace⟩, -⟩ := escapeChar_eq_of_not_isSpace (by simpa using hc)
      rw [escape_cons, hd]
      simp [skipSpace, hc, hspace, hd]

/-- White space at the end of an escaped text is white space at the end of the text. -/
theorem trimEnd_escape (cs : List Char) :
    Text.trimEnd isSpace (escape cs) = escape (Text.trimEnd isSpace cs) := by
  induction cs using List.reverseRecOn with
  | nil => rfl
  | append_singleton cs c ih =>
    by_cases hc : isSpace c = true
    · rw [escape_append, escape_cons, escapeChar_of_isSpace hc]
      simpa [Text.trimEnd, List.dropWhile_cons, hc] using ih
    · obtain ⟨-, ds, d, hd, hspace⟩ := escapeChar_eq_of_not_isSpace (by simpa using hc)
      rw [escape_append, escape_cons, hd]
      simp [Text.trimEnd, hc, hspace, hd]

/-! ## Reading back -/

/-- What is written for a character is read back as the character. -/
theorem unescapeFrom_escapeChar (c : Char) (position : Nat) (acc rest : List Char) :
    ∃ position', unescapeFrom none position acc (escapeChar c ++ rest) =
      unescapeFrom none position' (c :: acc) rest := by
  by_cases h : isMarkup c = true
  · -- Each of the five entities is resolved to its character.
    rcases escapeChar_of_isMarkup h with
      ⟨rfl, he⟩ | ⟨rfl, he⟩ | ⟨rfl, he⟩ | ⟨rfl, he⟩ | ⟨rfl, he⟩ <;>
      exact ⟨_, by rw [he]; simp [unescapeFrom, resolve, predefined?]; rfl⟩
  · have hamp : c ≠ '&' := by rintro rfl; exact h rfl
    rw [escapeChar_of_not_isMarkup (by simpa using h)]
    exact ⟨_, by rw [List.singleton_append, unescapeFrom, if_neg hamp]⟩

theorem unescapeFrom_escape (cs : List Char) (position : Nat) (acc : List Char) :
    unescapeFrom none position acc (escape cs) = .ok (acc.reverse ++ cs) := by
  induction cs generalizing position acc with
  | nil => simp [unescapeFrom]
  | cons c cs ih =>
    obtain ⟨position', hc⟩ := unescapeFrom_escapeChar c position acc (escape cs)
    rw [escape_cons, hc, ih]
    simp

/-- An escaped text is read back as the text. -/
theorem unescape_escape (cs : List Char) : unescape (escape cs) = .ok cs := by
  rw [unescape, unescapeFrom_escape, List.reverse_nil, List.nil_append]

end IntentFirewall.Xml
