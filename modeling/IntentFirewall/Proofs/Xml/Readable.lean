import IntentFirewall.Proofs.Xml.Normal
import IntentFirewall.Proofs.Xml.Tag
import IntentFirewall.Text.CharSet

/-!
# Contents that are read back

What has to hold of a content so that it is read back from what is written for it.

* `Content.IsReadable`: its names, keys and comments are such as reading finds in a document.
* `Content.IsSealed`: every tag, once it is written, ends where it should. That is more than what
  reading a document guarantees: a value in single quotes is written in double quotes, and an
  element without content is written as a tag that closes itself, so that a quotation mark in a
  key, a slash at the end of a name or a missing name can come to mean something else.
* `Content.IsDelimited`: the same for a content as it stands. It can be lost when an element without
  a name loses its content; a sealed content stays sealed.
* `Content.IsWellNamed`: names and keys consist of name characters, as XML demands it. Such
  contents are readable and sealed.
-/

namespace IntentFirewall.Xml

/-- A name and attributes that reading can find in a tag. -/
structure IsReadableTag (name : String) (attributes : Attributes) : Prop where
  /-- The name holds no white space. -/
  isName : IsName name.toList
  /-- The name does not begin like other markup than a start tag. -/
  start : ∀ c, name.toList.head? = some c → c ≠ '!' ∧ c ≠ '?' ∧ c ≠ '/'
  /-- The attributes can stand in one tag. -/
  areReadable : attributes.AreReadable

/-- A name and attributes whose tag ends where it should, once it is written. -/
structure IsSealedTag (name : String) (attributes : Attributes) (children : Content) : Prop where
  /-- Every quote is closed, and no `>` stands outside quotes. -/
  quotes : tagEnding.pass none (printTag name attributes) = some none
  /-- A tag with nothing but the slash that closes it would be an end tag. -/
  named : attributes = [] → name ≠ ""
  /-- A start tag does not look like a tag that closes itself. -/
  noSlash : attributes = [] → children ≠ .nil → name.toList.getLast? ≠ some '/'

/-- A name and attributes whose tag ends where it should, for an element with this very content. -/
structure IsDelimitedTag (name : String) (attributes : Attributes) (children : Content) :
    Prop where
  /-- Every quote is closed, and no `>` stands outside quotes. -/
  quotes : tagEnding.pass none (printTag name attributes) = some none
  /-- A tag that closes itself does not look like an end tag. -/
  named : attributes = [] → children = .nil → name ≠ ""
  /-- A start tag does not look like a tag that closes itself. -/
  noSlash : attributes = [] → children ≠ .nil → name.toList.getLast? ≠ some '/'

theorem IsSealedTag.isDelimitedTag {name : String} {attributes : Attributes} {children : Content}
    (h : IsSealedTag name attributes children) : IsDelimitedTag name attributes children :=
  ⟨h.quotes, fun hnone _ => h.named hnone, h.noSlash⟩

instance (name : String) (attributes : Attributes) (children : Content) :
    Decidable (IsDelimitedTag name attributes children) :=
  decidable_of_iff (tagEnding.pass none (printTag name attributes) = some none ∧
      (attributes = [] → children = .nil → name ≠ "") ∧
      (attributes = [] → children ≠ .nil → name.toList.getLast? ≠ some '/'))
    ⟨fun h => ⟨h.1, h.2.1, h.2.2⟩, fun h => ⟨h.quotes, h.named, h.noSlash⟩⟩

namespace Content

/-- The names, keys and comments of a content are such as reading finds in a document. -/
def IsReadable : Content → Prop
  | nil => True
  | element name attributes children rest =>
    IsReadableTag name attributes ∧
      (children ≠ nil → tagEnding.pass none name.toList = some none) ∧
      children.IsReadable ∧ rest.IsReadable
  | text _ rest => rest.IsReadable
  | comment t rest => ¬"-->".toList <:+: t.toList ∧ rest.IsReadable

/-- Every tag of a content ends where it should, once it is written. -/
def IsSealed : Content → Prop
  | nil => True
  | element name attributes children rest =>
    IsSealedTag name attributes children ∧ children.IsSealed ∧ rest.IsSealed
  | text _ rest => rest.IsSealed
  | comment _ rest => rest.IsSealed

/-- Every tag of a content, as it stands, ends where it should, once it is written. -/
def IsDelimited : Content → Prop
  | nil => True
  | element name attributes children rest =>
    IsDelimitedTag name attributes children ∧ children.IsDelimited ∧ rest.IsDelimited
  | text _ rest => rest.IsDelimited
  | comment _ rest => rest.IsDelimited

instance decidableIsDelimited : (c : Content) → Decidable c.IsDelimited
  | nil => .isTrue trivial
  | element name attributes children rest =>
    have := decidableIsDelimited children
    have := decidableIsDelimited rest
    inferInstanceAs (Decidable (IsDelimitedTag name attributes children ∧ _ ∧ _))
  | text _ rest => decidableIsDelimited rest
  | comment _ rest => decidableIsDelimited rest

theorem IsSealed.isDelimited {c : Content} (h : c.IsSealed) : c.IsDelimited := by
  induction c with
  | nil => trivial
  | element name attributes children rest ihChildren ihRest =>
    exact ⟨h.1.isDelimitedTag, ihChildren h.2.1, ihRest h.2.2⟩
  | text t rest ih => exact ih h
  | comment t rest ih => exact ih h

theorem isReadable_nil : nil.IsReadable := trivial

/-! ## Merged texts -/

theorem isReadable_consText {c : Content} (h : c.IsReadable) (t : String) :
    (consText t c).IsReadable := by
  cases c with
  | text u rest => exact h
  | _ => exact h

theorem isReadable_mergeTexts {c : Content} (h : c.IsReadable) : c.mergeTexts.IsReadable := by
  induction c with
  | nil => trivial
  | element name attributes children rest ihChildren ihRest =>
    obtain ⟨htag, hname, hchildren, hrest⟩ := h
    exact ⟨htag, fun hne => hname (mt mergeTexts_eq_nil_iff.2 hne), ihChildren hchildren,
      ihRest hrest⟩
  | text t rest ih => exact isReadable_consText (ih h) t
  | comment t rest ih => exact ⟨h.1, ih h.2⟩

theorem isSealed_consText {c : Content} {t : String} : (consText t c).IsSealed ↔ c.IsSealed := by
  cases c <;> rfl

theorem IsSealed.mergeTexts {c : Content} (h : c.IsSealed) : c.mergeTexts.IsSealed := by
  induction c with
  | nil => trivial
  | element name attributes children rest ihChildren ihRest =>
    obtain ⟨⟨hquotes, hnamed, hslash⟩, hchildren, hrest⟩ := h
    exact ⟨⟨hquotes, hnamed, fun hnone hne => hslash hnone (mt mergeTexts_eq_nil_iff.2 hne)⟩,
      ihChildren hchildren, ihRest hrest⟩
  | text t rest ih => exact isSealed_consText.2 (ih h)
  | comment t rest ih => exact ih h

theorem IsSealed.stripTexts {c : Content} (h : c.IsSealed) : c.stripTexts.IsSealed := by
  induction c with
  | nil => trivial
  | element name attributes children rest ihChildren ihRest =>
    obtain ⟨⟨hquotes, hnamed, hslash⟩, hchildren, hrest⟩ := h
    -- An element can lose its content here, but it does not get any.
    refine ⟨⟨hquotes, hnamed, fun hnone hne => hslash hnone ?_⟩, ihChildren hchildren, ihRest hrest⟩
    rintro rfl
    exact hne rfl
  | text t rest ih =>
    rw [Content.stripTexts]
    split <;> exact ih h
  | comment t rest ih => exact ih h

/-- The normal form of a sealed content is sealed. -/
theorem IsSealed.normal {c : Content} (h : c.IsSealed) : c.normal.IsSealed :=
  h.mergeTexts.stripTexts

theorem isDelimited_consText {c : Content} {t : String} :
    (consText t c).IsDelimited ↔ c.IsDelimited := by
  cases c <;> rfl

/-- Texts do not matter for where tags end. -/
theorem isDelimited_mergeTexts {c : Content} : c.mergeTexts.IsDelimited ↔ c.IsDelimited := by
  induction c with
  | nil => rfl
  | element name attributes children rest ihChildren ihRest =>
    refine and_congr ⟨fun h => ?_, fun h => ?_⟩ (and_congr ihChildren ihRest)
    · exact ⟨h.quotes, fun hnone hnil => h.named hnone (mergeTexts_eq_nil_iff.2 hnil),
        fun hnone hne => h.noSlash hnone (mt mergeTexts_eq_nil_iff.1 hne)⟩
    · exact ⟨h.quotes, fun hnone hnil => h.named hnone (mergeTexts_eq_nil_iff.1 hnil),
        fun hnone hne => h.noSlash hnone (mt mergeTexts_eq_nil_iff.2 hne)⟩
  | text t rest ih => exact isDelimited_consText.trans ih
  | comment t rest ih => exact ih

end Content

/-! ## Names of XML -/

/-- The characters that XML admits in a name. -/
def nameCharacters : Text.CharSet :=
  ⟨[0x2D, 0x2F, 0x30, 0x3B, 0x41, 0x5B, 0x5F, 0x60, 0x61, 0x7B, 0xB7, 0xB8, 0xC0, 0xD7, 0xD8, 0xF7,
    0xF8, 0x37E, 0x37F, 0x2000, 0x200C, 0x200E, 0x203F, 0x2041, 0x2070, 0x2190, 0x2C00, 0x2FF0,
    0x3001, 0xD800, 0xF900, 0xFDD0, 0xFDF0, 0xFFFE, 0x10000, 0xF0000]⟩

/-- A text that has characters, all of which XML admits in a name. -/
structure IsXmlName (s : String) : Prop where
  /-- There is a character. -/
  nonempty : s ≠ ""
  /-- Every character is one of a name. -/
  characters : ∀ c ∈ s.toList, nameCharacters.contains c = true

instance (s : String) : Decidable (IsXmlName s) :=
  decidable_of_iff (s ≠ "" ∧ s.toList.all nameCharacters.contains = true)
    ⟨fun h => ⟨h.1, List.all_eq_true.1 h.2⟩, fun h => ⟨h.nonempty, List.all_eq_true.2 h.characters⟩⟩

/-- Characters of names mean nothing else in markup. -/
theorem IsXmlName.not_mem {s : String} (h : IsXmlName s) {c : Char}
    (hc : nameCharacters.contains c = false) : c ∉ s.toList := by
  intro hmem
  simp [h.characters c hmem] at hc

theorem IsXmlName.isSpace_eq_false {s : String} (h : IsXmlName s) {c : Char}
    (hc : c ∈ s.toList) : isSpace c = false := by
  rw [Bool.eq_false_iff]
  intro hspace
  simp only [isSpace, Bool.or_eq_true, beq_iff_eq] at hspace
  rcases hspace with ((rfl | rfl) | rfl) | rfl <;> exact h.not_mem (by decide) hc

theorem IsXmlName.plain {s : String} (h : IsXmlName s) {c : Char} (hc : c ∈ s.toList) :
    c ≠ '"' ∧ c ≠ '\'' ∧ c ≠ '>' := by
  refine ⟨?_, ?_, ?_⟩ <;> rintro rfl <;> exact h.not_mem (by decide) hc

theorem IsXmlName.pass {s : String} (h : IsXmlName s) :
    tagEnding.pass none s.toList = some none :=
  pass_of_plain .none fun _ hc => h.plain hc

theorem IsXmlName.getLast?_ne_slash {s : String} (h : IsXmlName s) :
    s.toList.getLast? ≠ some '/' :=
  fun hslash => h.not_mem (by decide) (List.mem_of_mem_getLast? hslash)

theorem IsXmlName.isKey {s : String} (h : IsXmlName s) : IsKey s.toList := by
  cases hs : s.toList with
  | nil => exact h.nonempty (String.toList_eq_nil_iff.1 hs)
  | cons c cs =>
    have hmem {d : Char} (hd : d ∈ c :: cs) : d ∈ s.toList := hs ▸ hd
    refine ⟨h.isSpace_eq_false (hmem List.mem_cons_self), fun d hd => ⟨?_, ?_⟩⟩
    · rintro rfl
      exact h.not_mem (by decide) (hmem (List.mem_cons_of_mem c hd))
    · exact h.isSpace_eq_false (hmem (List.mem_cons_of_mem c hd))

/-- Attributes whose keys are names of XML and differ from each other. -/
structure Attributes.AreWellNamed (attributes : Attributes) : Prop where
  /-- Every key is a name. -/
  keys : ∀ a ∈ attributes, IsXmlName a.1
  /-- No key is used twice. -/
  nodup : (attributes.map Prod.fst).Nodup

instance (attributes : Attributes) : Decidable attributes.AreWellNamed :=
  decidable_of_iff ((∀ a ∈ attributes, IsXmlName a.1) ∧ (attributes.map Prod.fst).Nodup)
    ⟨fun h => ⟨h.1, h.2⟩, fun h => ⟨h.keys, h.nodup⟩⟩

theorem Attributes.AreWellNamed.areReadable {attributes : Attributes}
    (h : attributes.AreWellNamed) : attributes.AreReadable :=
  ⟨fun a ha => (h.keys a ha).isKey, h.nodup⟩

/-- Tags of well-named elements have no quotation marks but those around the values. -/
theorem Attributes.AreWellNamed.pass_printTag {name : String} {attributes : Attributes}
    (hname : ∀ c ∈ name.toList, c ≠ '"' ∧ c ≠ '\'' ∧ c ≠ '>') (h : attributes.AreWellNamed) :
    tagEnding.pass none (printTag name attributes) = some none := by
  rw [printTag, Ending.pass_append, pass_of_plain .none hname, Option.bind_some]
  -- For this it does not matter whether a key comes twice.
  have hkeys := h.keys
  clear h
  induction attributes with
  | nil => rfl
  | cons a rest ih =>
    obtain ⟨key, value⟩ := a
    have hkey : ∀ c ∈ key.toList, c ≠ '"' ∧ c ≠ '\'' ∧ c ≠ '>' := fun c hc =>
      (hkeys _ List.mem_cons_self).plain hc
    rw [List.flatMap_cons, Ending.pass_append, pass_printAttribute_of_plain hkey, Option.bind_some]
    exact ih fun b hb => hkeys b (List.mem_cons_of_mem _ hb)

theorem IsXmlName.isReadableTag {name : String} {attributes : Attributes} (hname : IsXmlName name)
    (h : attributes.AreReadable) : IsReadableTag name attributes where
  isName c hc := hname.isSpace_eq_false hc
  start c hc := by
    have hmem : c ∈ name.toList := List.mem_of_mem_head? hc
    refine ⟨?_, ?_, ?_⟩ <;> rintro rfl <;> exact hname.not_mem (by decide) hmem
  areReadable := h

theorem IsXmlName.isSealedTag {name : String} {attributes : Attributes} (hname : IsXmlName name)
    (h : attributes.AreWellNamed) (children : Content) : IsSealedTag name attributes children where
  quotes := h.pass_printTag fun _ hc => hname.plain hc
  named _ := hname.nonempty
  noSlash _ _ := hname.getLast?_ne_slash

namespace Content

/-- Elements and attributes are named as XML demands it, no key is used twice in a tag, and no
comment holds what ends a comment. -/
def IsWellNamed : Content → Prop
  | nil => True
  | element name attributes children rest =>
    IsXmlName name ∧ attributes.AreWellNamed ∧ children.IsWellNamed ∧ rest.IsWellNamed
  | text _ rest => rest.IsWellNamed
  | comment t rest => ¬"-->".toList <:+: t.toList ∧ rest.IsWellNamed

theorem IsWellNamed.isReadable {c : Content} (h : c.IsWellNamed) : c.IsReadable := by
  induction c with
  | nil => trivial
  | element name attributes children rest ihChildren ihRest =>
    obtain ⟨hname, hattributes, hchildren, hrest⟩ := h
    exact ⟨hname.isReadableTag hattributes.areReadable, fun _ => hname.pass, ihChildren hchildren,
      ihRest hrest⟩
  | text t rest ih => exact ih h
  | comment t rest ih => exact ⟨h.1, ih h.2⟩

theorem IsWellNamed.isSealed {c : Content} (h : c.IsWellNamed) : c.IsSealed := by
  induction c with
  | nil => trivial
  | element name attributes children rest ihChildren ihRest =>
    obtain ⟨hname, hattributes, hchildren, hrest⟩ := h
    exact ⟨hname.isSealedTag hattributes children, ihChildren hchildren, ihRest hrest⟩
  | text t rest ih => exact ih h
  | comment t rest ih => exact ih h.2

end Content
end IntentFirewall.Xml
