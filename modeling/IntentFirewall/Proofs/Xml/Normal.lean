import IntentFirewall.Proofs.Text.Trim
import IntentFirewall.Xml.Attribute
import IntentFirewall.Xml.Printer

/-!
# The normal form of a content

Markup does not tell where one text ends and the next one begins, and white space at the ends of a
text is no part of it. The normal form of a content is what markup can tell.

* `Content.mergeTexts`: texts side by side become one.
* `Content.stripTexts`: texts lose the white space at their ends, and those of white space only are
  left out.
* `Content.normal`: the one after the other. `Content.IsNormal` describes the contents that are in
  this form already, and `Content.normal_eq_self_iff` says so.
* `Content.print_mergeTexts`: merging texts does not change how a content is written.
-/

namespace IntentFirewall.Xml

/-- A text without the white space of markup at its ends. -/
def stripSpace (t : String) : String := String.ofList (Text.trimBoth isSpace t.toList)

theorem stripSpace_stripSpace (t : String) : stripSpace (stripSpace t) = stripSpace t := by
  rw [stripSpace, stripSpace, String.toList_ofList, Text.trimBoth_trimBoth]

namespace Content

/-- A text before a content. If the content begins with a text, the two become one. -/
def consText (t : String) : Content → Content
  | text u rest => text (t ++ u) rest
  | c => text t c

/-- A content in which texts side by side have become one. -/
def mergeTexts : Content → Content
  | nil => nil
  | element name attributes children rest =>
    element name attributes children.mergeTexts rest.mergeTexts
  | text t rest => consText t rest.mergeTexts
  | comment t rest => comment t rest.mergeTexts

/-- A content whose texts have lost the white space at their ends. Texts that are blank then are
left out. -/
def stripTexts : Content → Content
  | nil => nil
  | element name attributes children rest =>
    element name attributes children.stripTexts rest.stripTexts
  | text t rest =>
    if Text.isBlankText (stripSpace t) then rest.stripTexts
    else text (stripSpace t) rest.stripTexts
  | comment t rest => comment t rest.stripTexts

/-- The normal form of a content. -/
def normal (c : Content) : Content := c.mergeTexts.stripTexts

/-- Whether the first node is a text. -/
def beginsWithText : Content → Bool
  | text _ _ => true
  | _ => false

/-- No two texts stand side by side, at any depth. -/
def IsMerged : Content → Prop
  | nil => True
  | element _ _ children rest => children.IsMerged ∧ rest.IsMerged
  | text _ rest => rest.beginsWithText = false ∧ rest.IsMerged
  | comment _ rest => rest.IsMerged

/-- No two texts stand side by side, and every text has something other than white space at its
ends and is not blank, at any depth. -/
def IsNormal : Content → Prop
  | nil => True
  | element _ _ children rest => children.IsNormal ∧ rest.IsNormal
  | text t rest =>
    rest.beginsWithText = false ∧ stripSpace t = t ∧ Text.isBlankText t = false ∧ rest.IsNormal
  | comment _ rest => rest.IsNormal

/-! ## Merging -/

theorem consText_eq_text {c : Content} (h : c.beginsWithText = false) (t : String) :
    consText t c = text t c := by
  cases c with
  | text u rest => simp [beginsWithText] at h
  | _ => rfl

theorem isMerged_consText {c : Content} (h : c.IsMerged) (t : String) :
    (consText t c).IsMerged := by
  cases c with
  | text u rest => exact h
  | nil => exact ⟨rfl, h⟩
  | element name attributes children rest => exact ⟨rfl, h⟩
  | comment u rest => exact ⟨rfl, h⟩

/-- Merging texts leaves no two of them side by side. -/
theorem isMerged_mergeTexts (c : Content) : c.mergeTexts.IsMerged := by
  induction c with
  | nil => trivial
  | element name attributes children rest ihChildren ihRest => exact ⟨ihChildren, ihRest⟩
  | text t rest ih => exact isMerged_consText ih t
  | comment t rest ih => exact ih

theorem mergeTexts_eq_self {c : Content} (h : c.IsMerged) : c.mergeTexts = c := by
  induction c with
  | nil => rfl
  | element name attributes children rest ihChildren ihRest =>
    rw [mergeTexts, ihChildren h.1, ihRest h.2]
  | text t rest ih => rw [mergeTexts, ih h.2, consText_eq_text h.1]
  | comment t rest ih => rw [mergeTexts, ih h]

theorem mergeTexts_eq_nil_iff {c : Content} : c.mergeTexts = nil ↔ c = nil := by
  cases c with
  | text t rest =>
    rw [mergeTexts]
    cases rest.mergeTexts <;> simp [consText]
  | _ => simp [mergeTexts]

@[simp]
theorem endsInText_element (name : String) (attributes : Attributes) (children rest : Content) :
    (element name attributes children rest).endsInText = rest.endsInText := by
  cases rest <;> rfl

@[simp]
theorem endsInText_comment (t : String) (rest : Content) :
    (comment t rest).endsInText = rest.endsInText := by
  cases rest <;> rfl

theorem endsInText_consText (t : String) (c : Content) :
    (consText t c).endsInText = (text t c).endsInText := by
  cases c with
  | text u rest => cases rest <;> rfl
  | _ => rfl

theorem endsInText_mergeTexts (c : Content) : c.mergeTexts.endsInText = c.endsInText := by
  induction c with
  | nil => rfl
  | element name attributes children rest ihChildren ihRest => simpa [mergeTexts] using ihRest
  | text t rest ih =>
    rw [mergeTexts, endsInText_consText]
    -- Only the last node of a content tells whether it ends in a text.
    cases rest with
    | nil => rfl
    | _ =>
      rw [endsInText, endsInText, ih]
      all_goals simp [mergeTexts_eq_nil_iff]
  | comment t rest ih => simpa [mergeTexts] using ih

theorem print_consText (depth : Nat) (afterText : Bool) (t : String) (c : Content) :
    (consText t c).print depth afterText = escape t.toList ++ c.print depth true := by
  cases c with
  | text u rest => simp [consText, print_text, escape, List.flatMap_append]
  | _ => rw [consText_eq_text rfl, print_text]

/-- Merging texts does not change how a content is written. -/
theorem print_mergeTexts (depth : Nat) (afterText : Bool) (c : Content) :
    c.mergeTexts.print depth afterText = c.print depth afterText := by
  induction c generalizing depth afterText with
  | nil => rfl
  | element name attributes children rest ihChildren ihRest =>
    rw [mergeTexts]
    -- An element without content is written in a form of its own.
    by_cases h : children = nil
    · rw [h, mergeTexts, print_element_nil, print_element_nil, ihRest]
    · rw [print_element (mt mergeTexts_eq_nil_iff.1 h), print_element h, ihChildren, ihRest,
        endsInText_mergeTexts]
  | text t rest ih => rw [mergeTexts, print_consText, print_text, ih]
  | comment t rest ih => rw [mergeTexts, print_comment, print_comment, ih]

/-! ## The normal form -/

theorem stripTexts_text_of_blank {t : String} (h : Text.isBlankText (stripSpace t) = true)
    (rest : Content) : (text t rest).stripTexts = rest.stripTexts := by
  rw [stripTexts, if_pos h]

theorem stripTexts_text {t : String} (h : Text.isBlankText (stripSpace t) = false)
    (rest : Content) : (text t rest).stripTexts = text (stripSpace t) rest.stripTexts := by
  rw [stripTexts, if_neg (by simp [h])]

theorem beginsWithText_stripTexts {c : Content} (h : c.beginsWithText = false) :
    c.stripTexts.beginsWithText = false := by
  cases c with
  | text t rest => simp [beginsWithText] at h
  | _ => rfl

theorem isNormal_stripTexts {c : Content} (h : c.IsMerged) : c.stripTexts.IsNormal := by
  induction c with
  | nil => trivial
  | element name attributes children rest ihChildren ihRest => exact ⟨ihChildren h.1, ihRest h.2⟩
  | text t rest ih =>
    cases hblank : Text.isBlankText (stripSpace t) with
    | true =>
      rw [stripTexts_text_of_blank hblank]
      exact ih h.2
    | false =>
      rw [stripTexts_text hblank]
      exact ⟨beginsWithText_stripTexts h.1, stripSpace_stripSpace t, hblank, ih h.2⟩
  | comment t rest ih => exact ih h

/-- The normal form is in normal form. -/
theorem isNormal_normal (c : Content) : c.normal.IsNormal :=
  isNormal_stripTexts c.isMerged_mergeTexts

theorem IsNormal.isMerged {c : Content} (h : c.IsNormal) : c.IsMerged := by
  induction c with
  | nil => trivial
  | element name attributes children rest ihChildren ihRest => exact ⟨ihChildren h.1, ihRest h.2⟩
  | text t rest ih => exact ⟨h.1, ih h.2.2.2⟩
  | comment t rest ih => exact ih h

theorem stripTexts_eq_self {c : Content} (h : c.IsNormal) : c.stripTexts = c := by
  induction c with
  | nil => rfl
  | element name attributes children rest ihChildren ihRest =>
    rw [stripTexts, ihChildren h.1, ihRest h.2]
  | text t rest ih =>
    obtain ⟨-, hstrip, hblank, hrest⟩ := h
    rw [stripTexts_text (by rw [hstrip, hblank]), hstrip, ih hrest]
  | comment t rest ih => rw [stripTexts, ih h]

/-- A content is its own normal form exactly if it is in normal form. -/
theorem normal_eq_self_iff {c : Content} : c.normal = c ↔ c.IsNormal := by
  constructor
  · intro h
    exact h ▸ isNormal_normal c
  · intro h
    rw [normal, mergeTexts_eq_self h.isMerged, stripTexts_eq_self h]

end Content
end IntentFirewall.Xml
