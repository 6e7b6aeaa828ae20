import IntentFirewall.Proofs.Text.Substring
import Mathlib.Data.List.TakeWhile

/-!
# Lower case inside a longer text

The lower-case form of a text depends on what stands around it only through the capital sigmas in
it. So a part of a text is found again in lower case at its place, unless one of its sigmas ends a
word in the part and not in the text, or the other way round.

## Main definitions

* `lowerWithin`: the lower-case form of a part of a text.
* `ChangesSigma`: a part of a text has a sigma of another form when it stands alone.

## Main results

* `lowercase_eq_append`: the lower-case form of a text is put together from those of its parts.
* `lowerWithin_eq_lowercase_iff`: a part of a text has the form that it has when it stands alone
  exactly if no sigma changes.
-/

namespace IntentFirewall.Text

/-! ## Ends of words -/

/-- A sigma between two texts stands at the end of a word. What precedes it comes newest first. -/
def endsWord (before after : List Char) : Bool := meetsCased before && !meetsCased after

/-- Case ignores all characters of a text. -/
def IsIgnorable (cs : List Char) : Prop := ∀ c ∈ cs, caseIgnorable.contains c = true

variable {cs ds before after : List Char}

theorem isIgnorable_reverse : IsIgnorable cs.reverse ↔ IsIgnorable cs := by
  simp only [IsIgnorable, List.mem_reverse]

theorem meetsCased_of_isIgnorable (h : IsIgnorable cs) : meetsCased cs = false := by
  have hnone : cs.dropWhile caseIgnorable.contains = [] := List.dropWhile_eq_nil_iff.2 h
  rw [meetsCased, hnone]

/-- Characters that case ignores do not hide what stands behind them. -/
theorem meetsCased_append_of_isIgnorable (h : IsIgnorable cs) (ds : List Char) :
    meetsCased (cs ++ ds) = meetsCased ds := by
  rw [meetsCased, meetsCased, List.dropWhile_append_of_pos h]

/-- Behind a character that case does not ignore nothing is looked at. -/
theorem meetsCased_append_of_not_isIgnorable (h : ¬IsIgnorable cs) (ds : List Char) :
    meetsCased (cs ++ ds) = meetsCased cs := by
  have hne : cs.dropWhile caseIgnorable.contains ≠ [] := fun hnone =>
    h (List.dropWhile_eq_nil_iff.1 hnone)
  obtain ⟨c, rest, hrest⟩ := List.exists_cons_of_ne_nil hne
  rw [meetsCased, meetsCased, List.dropWhile_append, hrest]
  rfl

/-! ## Parts of a text -/

/-- The lower-case form of a character, given the characters before it, newest first, and those
behind it. -/
def lowerForm (before : List Char) (c : Char) (after : List Char) : List Char :=
  if c = 'Σ' then if endsWord before after then ['ς'] else ['σ']
  else if c = 'İ' then ['i', Char.ofNat 0x307]
  else [lowerChar c]

theorem lowerFrom_cons (before : List Char) (c : Char) (cs : List Char) :
    lowerFrom before (c :: cs) = lowerForm before c cs ++ lowerFrom (c :: before) cs := rfl

/-- The lower-case form of a part of a text, given what stands before it and behind it there. -/
def lowerWithin (before : List Char) : List Char → List Char → List Char
  | [], _ => []
  | c :: cs, after =>
    lowerForm before.reverse c (cs ++ after) ++ lowerWithin (before ++ [c]) cs after

/-- What stands behind a part of a text is put in lower case as if the part came first. -/
theorem lowerFrom_append (before cs after : List Char) :
    lowerFrom before.reverse (cs ++ after) =
      lowerWithin before cs after ++ lowerFrom (before ++ cs).reverse after := by
  induction cs generalizing before with
  | nil => rw [List.append_nil, lowerWithin, List.nil_append, List.nil_append]
  | cons c cs ih =>
    have hbefore : c :: before.reverse = (before ++ [c]).reverse := by simp
    rw [List.cons_append, lowerFrom_cons, hbefore, ih, lowerWithin, List.append_assoc,
      List.append_assoc]
    rfl

/-- The form of a whole text is that of a part with nothing around it. -/
theorem toList_lowercase (s : String) : (lowercase s).toList = lowerWithin [] s.toList [] := by
  have h := lowerFrom_append [] s.toList []
  rw [List.append_nil] at h
  rw [lowercase, String.toList_ofList]
  exact h.trans (List.append_nil _)

/-- The lower-case form of a text is put together from those of its parts. -/
theorem lowercase_eq_append {s : String} (h : s.toList = before ++ cs ++ after) :
    (lowercase s).toList = lowerWithin [] before (cs ++ after) ++ lowerWithin before cs after ++
      lowerWithin (before ++ cs) after [] := by
  have hfront := lowerFrom_append [] before (cs ++ after)
  have hpart := lowerFrom_append before cs after
  have hback := lowerFrom_append (before ++ cs) after []
  rw [List.append_nil] at hback
  rw [lowercase, String.toList_ofList, h, List.append_assoc]
  calc lowerFrom [] (before ++ (cs ++ after))
      = lowerWithin [] before (cs ++ after) ++ lowerFrom before.reverse (cs ++ after) := hfront
    _ = _ := by
      rw [hpart, hback, lowerFrom, List.append_nil, List.append_assoc]

/-! ## Sigmas that change -/

/-- A part of a text has a sigma of another form when it stands alone. -/
def ChangesSigma (before cs after : List Char) : Prop :=
  ∃ front back, cs = front ++ 'Σ' :: back ∧
    -- It ends a word of the part, and the word goes on behind the part.
    ((meetsCased front.reverse = true ∧ IsIgnorable back ∧ meetsCased after = true) ∨
    -- It ends a word that begins before the part, and nothing of which is in the part.
      (IsIgnorable front ∧ meetsCased before.reverse = true ∧ meetsCased (back ++ after) = false))

/-- Only a sigma changes. -/
theorem not_changesSigma_of_not_mem (h : 'Σ' ∉ cs) : ¬ChangesSigma before cs after := by
  rintro ⟨front, back, rfl, -⟩
  simp at h

/-- Where a sigma stands decides its form, and what is around it in the part decides unless there is
nothing but what case ignores. -/
theorem endsWord_append_ne_iff {front back : List Char} :
    endsWord (before ++ front).reverse (back ++ after) ≠ endsWord front.reverse back ↔
      (meetsCased front.reverse = true ∧ IsIgnorable back ∧ meetsCased after = true) ∨
        (IsIgnorable front ∧ meetsCased before.reverse = true ∧
          meetsCased (back ++ after) = false) := by
  rw [endsWord, endsWord, List.reverse_append]
  by_cases hfront : IsIgnorable front
  · -- The sigma ends no word of the part, as no word stands before it there.
    have hreverse := isIgnorable_reverse.2 hfront
    rw [meetsCased_append_of_isIgnorable hreverse, meetsCased_of_isIgnorable hreverse]
    simp [hfront]
  · have hreverse : ¬IsIgnorable front.reverse := mt isIgnorable_reverse.1 hfront
    rw [meetsCased_append_of_not_isIgnorable hreverse]
    by_cases hback : IsIgnorable back
    · -- The word before the sigma is that of the part, so that what follows the part decides.
      rw [meetsCased_append_of_isIgnorable hback, meetsCased_of_isIgnorable hback]
      cases meetsCased front.reverse <;> simp [hfront, hback]
    · rw [meetsCased_append_of_not_isIgnorable hback]
      simp [hfront, hback]

/-- The form of a character that is no sigma does not depend on what is around it. -/
theorem lowerForm_eq_iff {c : Char} {before' after' : List Char} :
    lowerForm before c after = lowerForm before' c after' ↔
      (c = 'Σ' → endsWord before after = endsWord before' after') := by
  by_cases hc : c = 'Σ'
  · have hforms : ['ς'] ≠ ['σ'] := by decide
    simp only [lowerForm, hc, if_true, forall_const]
    cases endsWord before after <;> cases endsWord before' after' <;> simp [hforms, hforms.symm]
  · simp [lowerForm, hc]

theorem length_lowerForm (before after before' after' : List Char) (c : Char) :
    (lowerForm before c after).length = (lowerForm before' c after').length := by
  unfold lowerForm
  split
  · split <;> split <;> rfl
  · split <;> rfl

/-- Two places give a part of a text the same form exactly if they give its sigmas the same. -/
theorem lowerWithin_eq_iff {before' after' : List Char} :
    lowerWithin before cs after = lowerWithin before' cs after' ↔
      ∀ front back, cs = front ++ 'Σ' :: back →
        endsWord (before ++ front).reverse (back ++ after) =
          endsWord (before' ++ front).reverse (back ++ after') := by
  induction cs generalizing before before' with
  | nil => simp [lowerWithin]
  | cons c cs ih =>
    -- The forms of one character are of one length, so that they stand at one place.
    have hlength := length_lowerForm before.reverse (cs ++ after) before'.reverse (cs ++ after') c
    rw [lowerWithin, lowerWithin]
    constructor
    · intro h front back hcs
      obtain ⟨hform, hrest⟩ := List.append_inj h hlength
      cases front with
      | nil =>
        obtain ⟨rfl, rfl⟩ := List.cons.inj hcs
        simpa using lowerForm_eq_iff.1 hform rfl
      | cons d front =>
        obtain ⟨rfl, htail⟩ := List.cons.inj hcs
        simpa using ih.1 hrest front back htail
    · intro h
      have hform : lowerForm before.reverse c (cs ++ after) =
          lowerForm before'.reverse c (cs ++ after') := by
        rw [lowerForm_eq_iff]
        rintro rfl
        simpa using h [] cs rfl
      have hrest : lowerWithin (before ++ [c]) cs after = lowerWithin (before' ++ [c]) cs after' := by
        rw [ih]
        intro front back hcs
        simpa using h (c :: front) back (congrArg (c :: ·) hcs)
      rw [hform, hrest]

/-- A part of a text has the form that it has when it stands alone exactly if no sigma changes. -/
theorem lowerWithin_eq_lowercase_iff {s : String} :
    lowerWithin before s.toList after = (lowercase s).toList ↔
      ¬ChangesSigma before s.toList after := by
  rw [toList_lowercase, lowerWithin_eq_iff]
  simp only [ChangesSigma, ← endsWord_append_ne_iff, List.nil_append, List.append_nil, not_exists,
    not_and, ne_eq, not_not]

end IntentFirewall.Text
