import IntentFirewall.Proofs.Text.Trim
import IntentFirewall.Text.Lowercase
import Mathlib.Data.String.Basic

/-!
# Case and white space

What it takes for a text to be a given word in any case, or with white space around it.

* `lowercase_eq_iff`: the lower-case form of a text is a word of small ASCII letters only if the
  text is that word in some case. Of the letters, only `k` has an upper-case form outside ASCII.
* `MeansTrue`, `spellsTrue_iff`: the texts by which a flag is set.
-/

namespace IntentFirewall.Text

/-! ## Lower-case forms -/

/-- A small letter of ASCII other than `k`. -/
def IsPlainSmall (c : Char) : Prop := c.isLower = true ∧ c ≠ 'k'

instance (c : Char) : Decidable (IsPlainSmall c) := inferInstanceAs (Decidable (_ ∧ _))

/-- A word of such letters. -/
def IsPlainWord (cs : List Char) : Prop := ∀ c ∈ cs, IsPlainSmall c

instance (cs : List Char) : Decidable (IsPlainWord cs) := List.decidableBAll IsPlainSmall cs

theorem toNat_of_isPlainSmall {c : Char} (h : IsPlainSmall c) :
    0x61 ≤ c.toNat ∧ c.toNat < 0x80 ∧ c.toNat ≠ 0x6B := by
  obtain ⟨hlower, hk⟩ := h
  obtain ⟨hfirst, hlast⟩ := Bool.and_eq_true_iff.1 hlower
  refine ⟨UInt32.le_iff_toNat_le.1 (of_decide_eq_true hfirst), ?_, fun h => hk ?_⟩
  · have : c.toNat ≤ 0x7A := UInt32.le_iff_toNat_le.1 (of_decide_eq_true hlast)
    omega
  · exact Char.ofNat_toNat c ▸ h ▸ rfl

/-- Characters beyond ASCII have their lower-case forms there, but for the Kelvin sign. -/
theorem lowerCode_of_forall {ranges : List CaseRange}
    (h : ∀ r ∈ ranges, 0x80 ≤ r.last → 0x80 ≤ r.target ∨ r.first = r.last ∧ r.target = 0x6B)
    {code : Nat} (hcode : 0x80 ≤ code) :
    0x80 ≤ lowerCode code ranges ∨ lowerCode code ranges = 0x6B := by
  induction ranges with
  | nil => exact .inl hcode
  | cons r rest ih =>
    rw [List.forall_mem_cons] at h
    rw [lowerCode]
    split
    · exact .inl hcode
    · split
      · split
        · rcases h.1 (by omega) with htarget | ⟨hone, htarget⟩
          · exact .inl (by omega)
          · exact .inr (by omega)
        · exact .inl hcode
      · exact ih h.2

theorem caseRanges_beyond : ∀ r ∈ caseRanges, 0x80 ≤ r.last →
    0x80 ≤ r.target ∨ r.first = r.last ∧ r.target = 0x6B := by
  decide +kernel

theorem toNat_ofNat_eq_or (code : Nat) :
    (Char.ofNat code).toNat = code ∨ (Char.ofNat code).toNat = 0 := by
  by_cases h : code.isValidChar
  · have hchar : Char.ofNat code = Char.ofNatAux code h := dif_pos h
    rw [hchar]
    exact .inl rfl
  · have hchar : Char.ofNat code = Char.ofNat 0 := dif_neg h
    rw [hchar]
    exact .inr rfl

/-- Only the large letters of ASCII are changed. -/
theorem toLower_eq_or (c : Char) : c.toLower = c ∨ 0x41 ≤ c.toNat ∧ c.toNat ≤ 0x5A := by
  by_cases h : 'A'.val ≤ c.val ∧ c.val ≤ 'Z'.val
  · exact .inr ⟨UInt32.le_iff_toNat_le.1 h.1, UInt32.le_iff_toNat_le.1 h.2⟩
  · exact .inl (dif_neg h)

/-- A plain small letter is the lower-case form of a letter of ASCII. -/
theorem lowerChar_eq_iff {c d : Char} (hd : IsPlainSmall d) : lowerChar c = d ↔ c.toLower = d := by
  obtain ⟨hlow, hhigh, hkelvin⟩ := toNat_of_isPlainSmall hd
  rw [lowerChar]
  split
  · rfl
  next hbeyond =>
    have hsame : c.toLower = c := by
      rcases toLower_eq_or c with hsame | hlarge
      · exact hsame
      · omega
    rw [hsame]
    constructor
    · rintro rfl
      exfalso
      have hcode : 0x80 ≤ lowerCode c.toNat caseRanges ∨ lowerCode c.toNat caseRanges = 0x6B :=
        lowerCode_of_forall caseRanges_beyond (by omega)
      -- A code that is no character does not give a letter either.
      rcases toNat_ofNat_eq_or (lowerCode c.toNat caseRanges) with hsame | hzero <;> omega
    · rintro rfl
      omega

/-- The lower-case form of a text is a plain word if the text is the word in some case. -/
theorem lowerFrom_eq_iff {w : List Char} (hw : IsPlainWord w) (before cs : List Char) :
    lowerFrom before cs = w ↔ cs.map Char.toLower = w := by
  induction cs generalizing before w with
  | nil => rfl
  | cons c cs ih =>
    cases w with
    | nil =>
      rw [lowerFrom]
      refine iff_of_false (fun h => ?_) (by simp)
      rw [List.append_eq_nil_iff] at h
      revert h
      split
      · split <;> simp
      · split <;> simp
    | cons d ds =>
      rw [IsPlainWord, List.forall_mem_cons] at hw
      rw [lowerFrom, List.map_cons, List.cons_eq_cons]
      by_cases hsigma : c = 'Σ'
      · -- Neither form of sigma is a letter of ASCII, nor is the letter itself.
        subst hsigma
        rw [if_pos rfl]
        refine iff_of_false (fun h => ?_) (fun h => ?_)
        · have hform : d = 'ς' ∨ d = 'σ' := by
            split at h
            · exact .inl (List.cons.inj h).1.symm
            · exact .inr (List.cons.inj h).1.symm
          rcases hform with rfl | rfl <;> exact absurd hw.1 (by decide)
        · obtain rfl := h.1
          exact absurd hw.1 (by decide)
      · rw [if_neg hsigma]
        by_cases hdotted : c = 'İ'
        · -- The dot that is left above the letter is no letter.
          subst hdotted
          rw [if_pos rfl]
          refine iff_of_false (fun h => ?_) (fun h => ?_)
          · obtain ⟨-, hrest⟩ := List.cons.inj h
            have hdot : IsPlainSmall (Char.ofNat 0x307) := by
              refine hw.2 _ ?_
              rw [← hrest]
              exact List.mem_cons_self
            exact absurd hdot (by decide)
          · obtain rfl := h.1
            exact absurd hw.1 (by decide)
        · rw [if_neg hdotted, List.singleton_append, List.cons_eq_cons, lowerChar_eq_iff hw.1,
            ih hw.2]

theorem lowercase_eq_iff {s w : String} (hw : IsPlainWord w.toList) :
    lowercase s = w ↔ s.toList.map Char.toLower = w.toList := by
  rw [lowercase, String.ofList_eq]
  exact lowerFrom_eq_iff hw [] s.toList

/-! ## Flags -/

/-- No letter is blank. -/
theorem isBlank_eq_false_of_toLower {c : Char} (h : IsPlainSmall c.toLower) :
    isBlank c = false := by
  have hletter : 0x41 ≤ c.toNat ∧ c.toNat < 0x80 := by
    obtain ⟨hlow, hhigh, -⟩ := toNat_of_isPlainSmall h
    rcases toLower_eq_or c with hsame | hlarge
    · rw [hsame] at hlow hhigh
      omega
    · omega
  rw [isBlank, Bool.eq_false_iff]
  simp only [ne_eq, Bool.or_eq_true, Bool.and_eq_true, decide_eq_true_eq, beq_iff_eq]
  omega

/-- The word `true` in any case, with white space around it. -/
def MeansTrue (s : String) : Prop := ∃ before word after,
  s.toList = before ++ (word ++ after) ∧ (∀ c ∈ before, isBlank c = true) ∧
    word.map Char.toLower = "true".toList ∧ ∀ c ∈ after, isBlank c = true

/-- A flag is set by such a text. -/
theorem spellsTrue_iff {s : String} : spellsTrue s = true ↔ MeansTrue s := by
  have hspells : spellsTrue s = true ↔
      (trimBoth isBlank s.toList).map Char.toLower = "true".toList := by
    rw [spellsTrue, beq_iff_eq, asciiLower, String.ofList_eq, trim, String.toList_ofList]
  rw [hspells]
  constructor
  · intro h
    obtain ⟨before, after, hs, hbefore, hafter⟩ := exists_eq_append_trimBoth isBlank s.toList
    exact ⟨before, _, after, hs, hbefore, h, hafter⟩
  · rintro ⟨before, word, after, hs, hbefore, hword, hafter⟩
    have hletters : ∀ c ∈ word, isBlank c = false := by
      intro c hc
      have hmem : c.toLower ∈ "true".toList := hword ▸ List.mem_map_of_mem hc
      have hall : IsPlainWord "true".toList := by decide
      exact isBlank_eq_false_of_toLower (hall _ hmem)
    have hne : word ≠ [] := by
      rintro rfl
      cases hword
    rw [hs, trimBoth_append hbefore hafter hletters hne, hword]

end IntentFirewall.Text
