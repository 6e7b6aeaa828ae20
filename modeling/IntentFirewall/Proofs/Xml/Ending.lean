import IntentFirewall.Proofs.Xml.Entity
import IntentFirewall.Xml.Ending
import IntentFirewall.Xml.Printer

/-!
# Markup that ends where it is meant to

A text is cut at the first `>` that ends the markup. So markup is found again behind its `<` if no
`>` inside it is taken for its end, and the one behind it is.

* `Ending.pass`: what is known behind a text in which no `>` ends the markup.
* `Ending.Encloses`: the contents that are found again; `Ending.split_eq_some_iff` says so.
* `tagEnding_encloses_iff`: a tag has to close its quotes. What is written for the values of its
  attributes does not matter for that (`pass_printTag_set`).
* `commentEnding_encloses_iff`: a comment must not hold `-->`.
-/

namespace IntentFirewall.Xml

namespace Ending

variable {σ : Type} {e : Ending σ}

/-- What is known behind a text, if no `>` in it ends the markup. -/
def pass (e : Ending σ) : σ → List Char → Option σ
  | s, [] => some s
  | s, c :: cs => if c = '>' ∧ e.closes s then none else e.pass (e.advance s c) cs

/-- No `>` in a content ends the markup, and one behind it does. -/
def Encloses (e : Ending σ) (content : List Char) : Prop :=
  ∃ s, e.pass e.initial content = some s ∧ e.closes s = true

theorem pass_append (s : σ) (cs ds : List Char) :
    e.pass s (cs ++ ds) = (e.pass s cs).bind fun t => e.pass t ds := by
  induction cs generalizing s with
  | nil => rfl
  | cons c cs ih =>
    rw [List.cons_append, pass, pass]
    split
    · rfl
    · exact ih _

/-- What is known behind a text is what its characters tell one after the other. -/
theorem eq_foldl_of_pass {s t : σ} {cs : List Char} (h : e.pass s cs = some t) :
    t = cs.foldl e.advance s := by
  induction cs generalizing s with
  | nil => exact (Option.some.inj h).symm
  | cons c cs ih =>
    rw [pass] at h
    split at h
    · simp at h
    · exact ih h

/-- A text is passed if none of its `>` ends the markup. -/
theorem pass_eq_some_foldl {s : σ} {cs : List Char}
    (h : ∀ before behind, cs = before ++ '>' :: behind →
      e.closes (before.foldl e.advance s) = false) :
    e.pass s cs = some (cs.foldl e.advance s) := by
  induction cs generalizing s with
  | nil => rfl
  | cons c cs ih =>
    have hc : ¬(c = '>' ∧ e.closes s = true) := by
      rintro ⟨rfl, hs⟩
      have := h [] cs rfl
      simp [hs] at this
    rw [pass, if_neg hc]
    refine ih fun before behind hcs => ?_
    exact h (c :: before) behind (by rw [hcs, List.cons_append])

/-- Cutting goes on behind a text that is passed. -/
theorem splitFrom_append {s t : σ} {cs : List Char} (h : e.pass s cs = some t)
    (acc rest : List Char) :
    e.splitFrom s acc (cs ++ rest) = e.splitFrom t (cs.reverse ++ acc) rest := by
  induction cs generalizing s acc with
  | nil => rw [Option.some.inj h]; rfl
  | cons c cs ih =>
    rw [pass] at h
    split at h
    · simp at h
    next hc =>
      rw [List.cons_append, splitFrom, if_neg hc, ih h]
      simp

theorem exists_of_splitFrom {s : σ} {acc cs content rest : List Char}
    (h : e.splitFrom s acc cs = some (content, rest)) :
    ∃ inner, content = acc.reverse ++ inner ∧
      ∃ t, e.pass s inner = some t ∧ e.closes t = true := by
  induction cs generalizing s acc with
  | nil => simp [splitFrom] at h
  | cons c cs ih =>
    rw [splitFrom] at h
    split at h
    next hc =>
      simp only [Option.some.injEq, Prod.mk.injEq] at h
      exact ⟨[], by simp [h.1], s, rfl, hc.2⟩
    next hc =>
      obtain ⟨inner, hinner, t, ht, hclose⟩ := ih h
      refine ⟨c :: inner, by simp [hinner], t, ?_, hclose⟩
      rw [pass, if_neg hc, ht]

/-- What is cut off is what the ending encloses. -/
theorem split_eq_some_iff {cs content rest : List Char} :
    e.split cs = some (content, rest) ↔ cs = content ++ '>' :: rest ∧ e.Encloses content := by
  constructor
  · intro h
    obtain ⟨inner, hinner, hpass⟩ := exists_of_splitFrom h
    obtain rfl : content = inner := by simpa using hinner
    exact ⟨split_eq_some h, hpass⟩
  · rintro ⟨rfl, s, hs, hclose⟩
    rw [split, splitFrom_append hs, splitFrom, if_pos ⟨rfl, hclose⟩]
    simp

/-- What is enclosed is cut off. -/
theorem split_append {content : List Char} (h : e.Encloses content) (rest : List Char) :
    e.split (content ++ '>' :: rest) = some (content, rest) :=
  split_eq_some_iff.2 ⟨rfl, h⟩

end Ending

/-! ## Tags -/

/-- What can be known inside a tag: that no quote is open, or which of the two is. -/
def IsQuoting (s : Option Char) : Prop := ∀ q, s = some q → q = '"' ∨ q = '\''

theorem IsQuoting.none : IsQuoting none := by
  intro q h
  simp at h

theorem tagEnding_encloses_iff {content : List Char} :
    tagEnding.Encloses content ↔ tagEnding.pass none content = some none := by
  constructor
  · rintro ⟨s, hs, hclose⟩
    obtain rfl : s = none := Option.isNone_iff_eq_none.1 hclose
    exact hs
  · intro h
    exact ⟨none, h, rfl⟩

/-- A quote is opened by a quotation mark and closed by the same one. -/
theorem isQuoting_advance {s : Option Char} (hs : IsQuoting s) (c : Char) :
    IsQuoting (tagEnding.advance s c) := by
  intro q h
  cases s with
  | none =>
    simp only [tagEnding] at h
    split at h
    next hc => exact Option.some.inj h ▸ hc
    next => simp at h
  | some p =>
    simp only [tagEnding] at h
    split at h
    · simp at h
    · exact Option.some.inj h ▸ hs p rfl

theorem isQuoting_of_pass {s t : Option Char} {cs : List Char} (hs : IsQuoting s)
    (h : tagEnding.pass s cs = some t) : IsQuoting t := by
  induction cs generalizing s with
  | nil => exact Option.some.inj h ▸ hs
  | cons c cs ih =>
    rw [Ending.pass] at h
    split at h
    · simp at h
    · exact ih (isQuoting_advance hs c) h

/-- Characters that are neither quotation marks nor `>` leave a tag as it is. -/
theorem pass_of_plain {s : Option Char} (hs : IsQuoting s) {cs : List Char}
    (h : ∀ c ∈ cs, c ≠ '"' ∧ c ≠ '\'' ∧ c ≠ '>') : tagEnding.pass s cs = some s := by
  induction cs with
  | nil => rfl
  | cons c cs ih =>
    obtain ⟨hdouble, hsingle, hend⟩ := h c List.mem_cons_self
    have hadvance : tagEnding.advance s c = s := by
      cases s with
      | none => simp [tagEnding, hdouble, hsingle]
      | some q =>
        have hq : c ≠ q := by rcases hs q rfl with rfl | rfl <;> assumption
        simp [tagEnding, hq]
    rw [Ending.pass, if_neg (fun hc => hend hc.1), hadvance]
    exact ih fun d hd => h d (List.mem_cons_of_mem c hd)

theorem pass_escape {s : Option Char} (hs : IsQuoting s) (cs : List Char) :
    tagEnding.pass s (escape cs) = some s := by
  refine pass_of_plain hs fun c hc => ⟨?_, ?_, ?_⟩ <;> rintro rfl
  · exact not_mem_escape rfl (by decide) cs hc
  · exact not_mem_escape rfl (by decide) cs hc
  · exact not_mem_escape rfl (by decide) cs hc

/-- The value of an attribute does not matter for where its tag ends. -/
theorem pass_printAttribute {s : Option Char} (hs : IsQuoting s) (key value : String) :
    tagEnding.pass s (printAttribute (key, value)) =
      tagEnding.pass s (' ' :: key.toList ++ ['=', '"', '"']) := by
  have hsplit : printAttribute (key, value) =
      (' ' :: key.toList ++ ['=', '"']) ++ (escape value.toList ++ ['"']) := by
    simp [printAttribute]
  have hempty : ' ' :: key.toList ++ ['=', '"', '"'] =
      (' ' :: key.toList ++ ['=', '"']) ++ ['"'] := by simp
  rw [hsplit, hempty]
  generalize ' ' :: key.toList ++ ['=', '"'] = opening
  rw [Ending.pass_append, Ending.pass_append]
  cases h : tagEnding.pass s opening with
  | none => rfl
  | some t =>
    rw [Option.bind_some, Option.bind_some, Ending.pass_append,
      pass_escape (isQuoting_of_pass hs h), Option.bind_some]

/-- Attributes without quotation marks in their keys keep the quotes of a tag closed. -/
theorem pass_printAttribute_of_plain {key : String}
    (h : ∀ c ∈ key.toList, c ≠ '"' ∧ c ≠ '\'' ∧ c ≠ '>') (value : String) :
    tagEnding.pass none (printAttribute (key, value)) = some none := by
  have hkey : ∀ c ∈ ' ' :: key.toList ++ ['='], c ≠ '"' ∧ c ≠ '\'' ∧ c ≠ '>' := by
    intro c hc
    simp only [List.mem_append, List.mem_cons, List.not_mem_nil, or_false] at hc
    rcases hc with (rfl | hc) | rfl
    · decide
    · exact h c hc
    · decide
  have hsplit : ' ' :: key.toList ++ ['=', '"', '"'] =
      (' ' :: key.toList ++ ['=']) ++ ['"', '"'] := by simp
  rw [pass_printAttribute .none, hsplit, Ending.pass_append, pass_of_plain .none hkey]
  -- What is left is an empty value, whose two quotation marks open and close a quote.
  rfl

theorem pass_printAttributes_set {s : Option Char} (hs : IsQuoting s) {key : String}
    {attributes : Attributes} (hkey : ∀ c ∈ key.toList, c ≠ '"' ∧ c ≠ '\'' ∧ c ≠ '>')
    (h : tagEnding.pass s (attributes.flatMap printAttribute) = some none) (value : String) :
    tagEnding.pass s ((attributes.set key value).flatMap printAttribute) = some none := by
  -- The name and other keys may open a quote, so the state before an attribute is arbitrary.
  induction attributes generalizing s with
  | nil =>
    obtain rfl : s = none := Option.some.inj h
    simpa [Attributes.set] using pass_printAttribute_of_plain hkey value
  | cons a rest ih =>
    obtain ⟨k, v⟩ := a
    rw [List.flatMap_cons, Ending.pass_append] at h
    obtain ⟨t, ht, hrest⟩ := Option.bind_eq_some_iff.1 h
    rw [Attributes.set]
    split
    next hk =>
      obtain rfl : k = key := hk
      rw [pass_printAttribute hs, ← pass_printAttribute hs k value] at ht
      rw [List.flatMap_cons, Ending.pass_append, ht, Option.bind_some, hrest]
    next =>
      rw [List.flatMap_cons, Ending.pass_append, ht, Option.bind_some]
      exact ih (isQuoting_of_pass hs ht) hrest

/-- Giving an attribute of a tag a value keeps the quotes of the tag closed, if its key has no
quotation mark. -/
theorem pass_printTag_set {name key : String} {attributes : Attributes}
    (hkey : ∀ c ∈ key.toList, c ≠ '"' ∧ c ≠ '\'' ∧ c ≠ '>')
    (h : tagEnding.pass none (printTag name attributes) = some none) (value : String) :
    tagEnding.pass none (printTag name (attributes.set key value)) = some none := by
  rw [printTag, Ending.pass_append] at h ⊢
  obtain ⟨s, hs, hattributes⟩ := Option.bind_eq_some_iff.1 h
  rw [hs, Option.bind_some]
  exact pass_printAttributes_set (isQuoting_of_pass .none hs) hkey hattributes value

/-! ## Comments -/

theorem fst_foldl_commentEnding (cs : List Char) (s : Nat × Nat) :
    (cs.foldl commentEnding.advance s).1 = s.1 + cs.length := by
  induction cs generalizing s with
  | nil => rfl
  | cons c cs ih =>
    rw [List.foldl_cons, ih]
    simp only [commentEnding, List.length_cons]
    omega

theorem foldl_commentEnding_concat (cs : List Char) (c : Char) (s : Nat × Nat) :
    ((cs ++ [c]).foldl commentEnding.advance s).2 =
      if c = '-' then (cs.foldl commentEnding.advance s).2 + 1 else 0 := by
  rw [List.foldl_append]
  rfl

/-- Dashes that are counted at the end of a text stand there. -/
theorem exists_of_foldl_commentEnding {n : Nat} {cs : List Char}
    (h : n ≤ (cs.foldl commentEnding.advance (0, 0)).2) :
    ∃ before, cs = before ++ List.replicate n '-' := by
  induction n generalizing cs with
  | zero => exact ⟨cs, by simp⟩
  | succ n ih =>
    cases cs using List.reverseRecOn with
    | nil => simp at h
    | append_singleton cs c =>
      rw [foldl_commentEnding_concat] at h
      split at h
      next hc =>
        obtain ⟨before, rfl⟩ := ih (Nat.le_of_succ_le_succ h)
        exact ⟨before, by rw [hc, List.append_assoc, ← List.replicate_succ']⟩
      next => simp at h

/-- A `>` ends a comment behind two dashes, if there are three characters before these. -/
theorem closes_commentEnding_iff {cs : List Char} :
    commentEnding.closes (cs.foldl commentEnding.advance (0, 0)) = true ↔
      ∃ before, cs = before ++ ['-', '-'] ∧ 3 ≤ before.length := by
  have hlength := fst_foldl_commentEnding cs (0, 0)
  simp only [commentEnding, Bool.and_eq_true, decide_eq_true_eq] at hlength ⊢
  constructor
  · rintro ⟨hlong, hdashes⟩
    obtain ⟨before, rfl⟩ := exists_of_foldl_commentEnding hdashes
    refine ⟨before, rfl, ?_⟩
    rw [hlength] at hlong
    simp only [List.length_append, List.length_replicate] at hlong
    omega
  · rintro ⟨before, rfl, hlong⟩
    refine ⟨?_, ?_⟩
    · rw [hlength]
      simp only [List.length_append, List.length_cons, List.length_nil]
      omega
    · have hsplit : before ++ ['-', '-'] = (before ++ ['-']) ++ ['-'] := by simp
      have hdashes := foldl_commentEnding_concat (before ++ ['-']) '-' (0, 0)
      rw [if_pos rfl, ← hsplit, foldl_commentEnding_concat, if_pos rfl] at hdashes
      simp only [commentEnding] at hdashes
      omega

/-- What ends a comment does not reach into the dashes behind it: these hold no `>`. -/
theorem isInfix_of_append_eq {comment inner behind : List Char}
    (h : inner ++ ['-', '-', '>'] ++ behind = comment ++ ['-', '-']) :
    ['-', '-', '>'] <:+: comment := by
  rcases List.append_eq_append_iff.1 h with ⟨between, rfl, -⟩ | ⟨between, hcomment, hdashes⟩
  · exact ⟨inner, between, rfl⟩
  rcases List.eq_nil_or_concat between with rfl | ⟨front, last, rfl⟩
  · exact ⟨inner, [], by simpa using hcomment⟩
  · have hlast : (inner ++ ['-', '-']) ++ ['>'] = (comment ++ front) ++ [last] := by
      simpa using hcomment
    obtain rfl : '>' = last := by simpa using (List.append_inj' hlast rfl).2
    have hmem : '>' ∈ ['-', '-'] := by rw [hdashes]; simp
    simp at hmem

/-- A comment is found again exactly if it does not hold what ends a comment. -/
theorem commentEnding_encloses_iff {comment : List Char} :
    commentEnding.Encloses ("!--".toList ++ comment ++ "--".toList) ↔
      ¬"-->".toList <:+: comment := by
  have hend : "-->".toList = ['-', '-', '>'] := rfl
  have hclose : "--".toList = ['-', '-'] := rfl
  have hstart : "!--".toList = ['!', '-', '-'] := rfl
  rw [hend, hclose, hstart]
  constructor
  · -- A `-->` inside the comment would end it: the `!--` before it makes it long enough.
    rintro ⟨s, hs, -⟩ ⟨before, behind, rfl⟩
    have hsplit : ['!', '-', '-'] ++ (before ++ ['-', '-', '>'] ++ behind) ++ ['-', '-'] =
        (['!', '-', '-'] ++ before ++ ['-', '-']) ++ '>' :: (behind ++ ['-', '-']) := by simp
    rw [hsplit, Ending.pass_append] at hs
    obtain ⟨t, ht, hpass⟩ := Option.bind_eq_some_iff.1 hs
    have hcloses : commentEnding.closes t = true := by
      rw [Ending.eq_foldl_of_pass ht]
      exact closes_commentEnding_iff.2 ⟨_, rfl, by simp⟩
    rw [Ending.pass, if_pos ⟨rfl, hcloses⟩] at hpass
    simp at hpass
  · intro hinfix
    refine ⟨_, Ending.pass_eq_some_foldl fun before behind hsplit => ?_, ?_⟩
    · by_contra hcloses
      rw [Bool.not_eq_false] at hcloses
      obtain ⟨before, rfl, hlong⟩ := closes_commentEnding_iff.1 hcloses
      -- The three characters before the dashes are those that begin the comment.
      obtain ⟨inner, rfl⟩ : ['!', '-', '-'] <+: before := by
        have hwhole : ['!', '-', '-'] <+: before ++ ['-', '-'] ++ '>' :: behind := by
          rw [← hsplit, List.append_assoc]
          exact List.prefix_append _ _
        rw [List.append_assoc] at hwhole
        exact List.prefix_of_prefix_length_le hwhole (List.prefix_append _ _) hlong
      exact hinfix (isInfix_of_append_eq (by simpa using hsplit.symm))
    · exact closes_commentEnding_iff.2 ⟨['!', '-', '-'] ++ comment, rfl, by simp⟩

end IntentFirewall.Xml
