import IntentFirewall.Proofs.Text.Utf8
import IntentFirewall.Proofs.Xml.Parsed
import IntentFirewall.Proofs.Xml.Spelling

/-!
# Ways to write a document

A document can be written in more ways than the one in which it is printed. What is read of it may
differ then, but not the start tags.

## Main definitions

* `Renders`, `RendersDocument`: the ways to write a content, and a document.
* `Content.descendants`: the elements at any depth.
* `Reader.ReadsTags`: the start tags that are read of a text.

## Main results

* `Renders.readsTags`: the elements of a content are read in document order however it is written.
* `RendersDocument.exists_startTags_events`: the same for a document, which is read without a fault.
-/

namespace IntentFirewall.Xml

/-! ## Start tags of a text -/

namespace Reader

/-- The given start tags are read from the start of a text on, up to the start of another one. The
lists of names are those of the elements that are open at the two places. -/
def ReadsTags (text : List Char) (tags : List (List Char)) (ts : List Tag) (tail : List Char)
    (tags' : List (List Char)) : Prop :=
  ∀ consumed, ∃ consumed',
    startTags (Reader.mk text consumed tags).events.items =
      ts ++ startTags (Reader.mk tail consumed' tags').events.items ∧
    (Reader.mk text consumed tags).events.failure =
      (Reader.mk tail consumed' tags').events.failure

section

variable {text middle tail : List Char} {tags tags' tags'' : List (List Char)}

theorem ReadsTags.nil : ReadsTags text tags [] text tags := fun consumed => ⟨consumed, rfl, rfl⟩

theorem ReadsTags.append {ts us : List Tag} (h : ReadsTags text tags ts middle tags')
    (h' : ReadsTags middle tags' us tail tags'') : ReadsTags text tags (ts ++ us) tail tags'' := by
  intro consumed
  obtain ⟨consumed₁, hts, hfailure⟩ := h consumed
  obtain ⟨consumed₂, hus, hfailure'⟩ := h' consumed₁
  refine ⟨consumed₂, ?_, hfailure.trans hfailure'⟩
  rw [hts, hus, List.append_assoc]

/-- The start tags among events that are read are read. -/
theorem Reads.readsTags {es : List Event} (h : Reads text tags es tail tags') :
    ReadsTags text tags (startTags es) tail tags' := by
  intro consumed
  obtain ⟨consumed', hes⟩ := h consumed
  refine ⟨consumed', ?_, ?_⟩
  · rw [hes, Scan.prepend, startTags, List.filterMap_append]
    rfl
  · rw [hes]
    rfl

/-- The start tag of markup, if it is one, is read at its `<`. -/
theorem readsTags_markup {rest : List Char} {e : Event}
    (hmarkup : ∀ consumed, ∃ consumed', markup ⟨rest, consumed, tags⟩ =
      .ok (e, ⟨tail, consumed', tags'⟩)) :
    ReadsTags ('<' :: rest) tags (startTags [e]) tail tags' :=
  (reads_markup rfl hmarkup).readsTags

end

/-! ## Texts -/

theorem size_append (cs ds : List Char) : Utf8.size (cs ++ ds) = Utf8.size cs + Utf8.size ds := by
  rw [← Utf8.length_encode, ← Utf8.length_encode, ← Utf8.length_encode, Utf8.encode_append,
    List.length_append]

/-- White space takes a byte for each character. -/
theorem size_of_allSpace {spaces : List Char} (h : AllSpace spaces) :
    Utf8.size spaces = spaces.length := by
  induction spaces with
  | nil => rfl
  | cons c cs ih =>
    have hc : Utf8.size [c] = 1 := by
      have hspace := h c List.mem_cons_self
      simp only [isSpace, Bool.or_eq_true, beq_iff_eq] at hspace
      rcases hspace with ((rfl | rfl) | rfl) | rfl <;> rfl
    rw [← List.singleton_append, size_append, hc, ih fun d hd => h d (List.mem_cons_of_mem c hd)]
    simp only [List.length_append, List.length_cons, List.length_nil]

/-- Up to the next markup there are no tags. -/
theorem startTags_events_dropWhile (cs : List Char) (consumed : Nat) (tags : List (List Char)) :
    let behind : Reader := ⟨cs.dropWhile (· != '<'),
      consumed + Utf8.size (cs.takeWhile (· != '<')), tags⟩
    startTags (Reader.mk cs consumed tags).events.items = startTags behind.events.items ∧
      (Reader.mk cs consumed tags).events.failure = behind.events.failure := by
  intro behind
  have hspaces : AllSpace (cs.takeWhile isSpace) := fun c hc => List.mem_takeWhile_imp hc
  have hno : ∀ c ∈ cs.takeWhile isSpace, (c != '<') = true := by
    intro c hc
    rw [bne_iff_ne]
    rintro rfl
    exact absurd (hspaces _ hc) (by decide)
  have hcs : cs = cs.takeWhile isSpace ++ skipSpace cs := List.takeWhile_append_dropWhile.symm
  have hdrop : cs.dropWhile (· != '<') = (skipSpace cs).dropWhile (· != '<') := by
    conv_lhs => rw [hcs, List.dropWhile_append_of_pos hno]
  have hsize : Utf8.size (cs.takeWhile (· != '<')) = (cs.takeWhile isSpace).length +
      Utf8.size ((skipSpace cs).takeWhile (· != '<')) := by
    conv_lhs => rw [hcs, List.takeWhile_append_of_pos hno, size_append, size_of_allSpace hspaces]
  -- At markup, and at the end, the same is read from both places.
  have hmarkup (h : (skipSpace cs).dropWhile (· != '<') = skipSpace cs)
      (h' : (skipSpace cs).takeWhile (· != '<') = []) :
      (Reader.mk cs consumed tags).events = behind.events := by
    refine events_congr ?_
    have hagain : skipSpace (skipSpace cs) = skipSpace cs := List.dropWhile_idempotent isSpace cs
    have hnone : (skipSpace cs).takeWhile isSpace = [] := by
      rw [List.takeWhile_eq_nil_iff]
      intro hlt
      have hhead := List.head?_dropWhile_not isSpace cs
      rw [← skipSpace, List.head?_eq_getElem?, List.getElem?_eq_getElem hlt] at hhead
      simpa using hhead
    have hzero : Utf8.size [] = 0 := rfl
    simp only [skip, behind, hdrop, hsize, h, h', hagain, hnone, hzero, List.length_nil,
      Nat.add_zero]
  cases hskip : skipSpace cs with
  | nil =>
    rw [hmarkup (by rw [hskip]; rfl) (by rw [hskip]; rfl)]
    exact ⟨rfl, rfl⟩
  | cons c rest =>
    by_cases hc : c = '<'
    · subst hc
      rw [hmarkup (by rw [hskip]; rfl) (by rw [hskip]; rfl)]
      exact ⟨rfl, rfl⟩
    · have hnext : (Reader.mk cs consumed tags).next =
          .ok (some ((Reader.mk cs consumed tags).skip.text.1, behind)) := by
        rw [next]
        simp only [skip, hskip]
        split
        next hnil => cases hnil
        next heq => exact absurd (List.cons.inj heq).1 hc
        next =>
          simp only [text, behind, hdrop, hsize, hskip, Nat.add_assoc]
      rw [events_of_next hnext]
      exact ⟨rfl, rfl⟩

/-- A text in which no markup begins has no tags, whatever comes behind it. -/
theorem readsTags_text {raw : List Char} (h : '<' ∉ raw) (tail : List Char)
    (tags : List (List Char)) : ReadsTags (raw ++ tail) tags [] tail tags := by
  have hraw : ∀ c ∈ raw, (c != '<') = true := by
    intro c hc
    rw [bne_iff_ne]
    rintro rfl
    exact h hc
  intro consumed
  -- From both places reading comes to the next markup.
  have hbefore := startTags_events_dropWhile (raw ++ tail) consumed tags
  have hbehind := startTags_events_dropWhile tail (consumed + Utf8.size raw) tags
  rw [List.takeWhile_append_of_pos hraw, List.dropWhile_append_of_pos hraw, size_append,
    ← Nat.add_assoc] at hbefore
  refine ⟨consumed + Utf8.size raw, ?_, ?_⟩
  · rw [hbefore.1, hbehind.1, List.nil_append]
  · rw [hbefore.2, hbehind.2]

end Reader

/-! ## CDATA sections and processing instructions -/

/-- No `>` ends a CDATA section that does not hold what ends one. The closing brackets that have
been counted stand before the text. -/
theorem exists_pass_characterDataEnding {n : Nat} {cs : List Char}
    (h : ¬"]]>".toList <:+: List.replicate (min n 2) ']' ++ cs) :
    ∃ m, characterDataEnding.pass n cs = some m := by
  -- Of the brackets that have been counted, the last two tell whether the section can end.
  induction cs generalizing n with
  | nil => exact ⟨n, rfl⟩
  | cons c cs ih =>
    have hopen : ¬(c = '>' ∧ characterDataEnding.closes n = true) := by
      rintro ⟨rfl, hclose⟩
      have hmin : min n 2 = 2 := Nat.min_eq_right (of_decide_eq_true hclose)
      rw [hmin] at h
      exact h ⟨[], cs, rfl⟩
    rw [Ending.pass, if_neg hopen]
    refine ih fun hinfix => h ?_
    by_cases hc : c = ']'
    · subst hc
      have hadvance : characterDataEnding.advance n ']' = n + 1 := rfl
      rw [hadvance] at hinfix
      have hshift : List.replicate (min n 2) ']' ++ ']' :: cs =
          List.replicate (min n 2 + 1) ']' ++ cs := by
        rw [List.replicate_succ', List.append_assoc]
        rfl
      have hle : min (n + 1) 2 ≤ min n 2 + 1 := by omega
      obtain ⟨k, hk⟩ := Nat.exists_eq_add_of_le' hle
      rw [hshift, hk, List.replicate_add, List.append_assoc]
      exact hinfix.trans (List.suffix_append _ _).isInfix
    · have hadvance : characterDataEnding.advance n c = 0 := if_neg hc
      rw [hadvance] at hinfix
      refine hinfix.trans (List.IsSuffix.isInfix ?_)
      exact ((List.suffix_cons c cs).trans (List.suffix_append _ _))

theorem characterDataEnding_encloses {t : List Char} (h : ¬"]]>".toList <:+: t) :
    characterDataEnding.Encloses ("![CDATA[".toList ++ t ++ "]]".toList) := by
  obtain ⟨m, hm⟩ : ∃ m, characterDataEnding.pass 0 t = some m := exists_pass_characterDataEnding h
  refine ⟨m + 2, ?_, by simp [characterDataEnding]⟩
  rw [Ending.pass_append, Ending.pass_append]
  change (characterDataEnding.pass 0 t).bind _ = _
  rw [hm]
  rfl

/-- No `>` ends a processing instruction that does not hold what ends one. -/
theorem exists_pass_instructionEnding {b : Bool} {cs : List Char}
    (h : ¬"?>".toList <:+: if b then '?' :: cs else cs) :
    ∃ b', instructionEnding.pass b cs = some b' := by
  induction cs generalizing b with
  | nil => exact ⟨b, rfl⟩
  | cons c cs ih =>
    have hopen : ¬(c = '>' ∧ instructionEnding.closes b = true) := by
      rintro ⟨rfl, hclose⟩
      obtain rfl : b = true := hclose
      exact h ⟨[], cs, rfl⟩
    rw [Ending.pass, if_neg hopen]
    refine ih fun hinfix => h ?_
    have hcs : (if instructionEnding.advance b c = true then '?' :: cs else cs) <:+ c :: cs := by
      by_cases hc : c = '?'
      · subst hc
        exact List.suffix_rfl
      · have hadvance : instructionEnding.advance b c = false := by simp [instructionEnding, hc]
        rw [hadvance]
        exact List.suffix_cons c cs
    refine hinfix.trans (hcs.trans ?_).isInfix
    split
    · exact List.suffix_cons _ _
    · exact List.suffix_rfl

theorem instructionEnding_encloses {t : List Char} (h : ¬"?>".toList <:+: '?' :: t) :
    instructionEnding.Encloses ('?' :: t ++ ['?']) := by
  obtain ⟨b, hb⟩ := exists_pass_instructionEnding (b := false) h
  refine ⟨true, ?_, rfl⟩
  have hinitial : instructionEnding.initial = false := rfl
  rw [hinitial, Ending.pass_append, hb]
  cases b <;> rfl

/-! ## Markup -/

namespace Reader

variable {name : String} {attributes : Attributes} {content : List Char}

/-- A start tag is read however it is written. -/
theorem markup_opened_of_spells (h : SpellsTag content name attributes) (hname : IsXmlName name)
    (hattributes : attributes.AreWellNamed) (tail : List Char) (tags : List (List Char))
    (consumed : Nat) :
    ∃ consumed', markup ⟨content ++ '>' :: tail, consumed, tags⟩ =
      .ok (.opened ⟨content⟩, ⟨tail, consumed', name.toList :: tags⟩) := by
  rw [← (h.isOf hname hattributes).name]
  exact markup_opened_of_content (h.startsTag hname _) (h.pass hname hattributes)
    (h.getLast?_ne_slash hname) tags consumed

/-- So is a tag that closes itself. -/
theorem markup_selfClosed_of_spells (h : SpellsTag content name attributes)
    (hname : IsXmlName name) (hattributes : attributes.AreWellNamed) (tail : List Char)
    (tags : List (List Char)) (consumed : Nat) :
    ∃ consumed', markup ⟨content ++ '/' :: '>' :: tail, consumed, tags⟩ =
      .ok (.selfClosed ⟨content⟩, ⟨tail, consumed', tags⟩) :=
  markup_selfClosed_of_content (h.startsTag hname _) (h.pass hname hattributes) tags consumed

/-- White space behind the name in an end tag does not count. -/
theorem endName_append {spaces : List Char} (hname : IsXmlName name) (hspaces : AllSpace spaces) :
    endName (name.toList ++ spaces) = name.toList := by
  obtain ⟨c, cs, hc⟩ := List.exists_cons_of_ne_nil (mt String.toList_eq_nil_iff.1 hname.nonempty)
  have hnot : isSpace c = false := hname.isSpace_eq_false (hc ▸ List.mem_cons_self)
  have hall : (name.toList ++ spaces).all isSpace = false := by
    rw [hc]
    simp [hnot]
  rw [endName, hall, if_neg Bool.false_ne_true]
  -- What is cut off from behind are the spaces, and none of the name.
  have hreverse : ∀ d ∈ spaces.reverse, isSpace d = true := fun d hd =>
    hspaces d (List.mem_reverse.1 hd)
  have hdrop : name.toList.reverse.dropWhile isSpace = name.toList.reverse := by
    cases hrev : name.toList.reverse with
    | nil => rfl
    | cons d ds =>
      have hd : d ∈ name.toList := List.mem_reverse.1 (hrev ▸ List.mem_cons_self)
      rw [List.dropWhile_cons, hname.isSpace_eq_false hd]
      rfl
  rw [Text.trimEnd, List.reverse_append, List.dropWhile_append_of_pos hreverse, hdrop,
    List.reverse_reverse]

/-- An end tag is read however it is written. -/
theorem markup_closed_of_spells {spaces : List Char} (hname : IsXmlName name)
    (hspaces : AllSpace spaces) (tail : List Char) (tags : List (List Char)) (consumed : Nat) :
    ∃ consumed', markup ⟨'/' :: (name.toList ++ spaces) ++ '>' :: tail, consumed,
      name.toList :: tags⟩ = .ok (.closed, ⟨tail, consumed', tags⟩) := by
  have hquotes : tagEnding.pass none (name.toList ++ spaces) = some none := by
    rw [Ending.pass_append, hname.pass, Option.bind_some, hspaces.pass]
  exact markup_closed_of_endName (endName_append hname hspaces) hquotes tail tags consumed

/-- A CDATA section is read, if it does not hold what ends one. -/
theorem markup_characterData {t : List Char} (h : ¬"]]>".toList <:+: t) (tail : List Char)
    (tags : List (List Char)) (consumed : Nat) :
    ∃ consumed', markup ⟨"![CDATA[".toList ++ t ++ "]]".toList ++ '>' :: tail, consumed, tags⟩ =
      .ok (.characterData t, ⟨tail, consumed', tags⟩) := by
  have hmarkup : markup ⟨"![CDATA[".toList ++ t ++ "]]".toList ++ '>' :: tail, consumed, tags⟩ =
      characterData ⟨"![CDATA[".toList ++ t ++ "]]".toList ++ '>' :: tail, consumed, tags⟩ := rfl
  have hcontent : characterDataContent? ("![CDATA[".toList ++ t ++ "]]".toList) = some t := by
    rw [show "![CDATA[".toList = ['!', '[', 'C', 'D', 'A', 'T', 'A', '['] from rfl]
    simp [characterDataContent?]
  rw [hmarkup, characterData, enclosed, Ending.split_append (characterDataEnding_encloses h)]
  simp only [behind, hcontent]
  exact ⟨_, rfl⟩

/-- A processing instruction is read, if it does not hold what ends one. -/
theorem markup_instruction {t : List Char} (h : ¬"?>".toList <:+: '?' :: t) (tail : List Char)
    (tags : List (List Char)) (consumed : Nat) :
    ∃ consumed', markup ⟨'?' :: t ++ ['?'] ++ '>' :: tail, consumed, tags⟩ =
      .ok (.ignored, ⟨tail, consumed', tags⟩) := by
  have hmarkup : markup ⟨'?' :: t ++ ['?'] ++ '>' :: tail, consumed, tags⟩ =
      instruction ⟨'?' :: t ++ ['?'] ++ '>' :: tail, consumed, tags⟩ := rfl
  have hlength : ('?' :: t ++ ['?']).length ≠ 1 := by simp
  rw [hmarkup, instruction, enclosed, Ending.split_append (instructionEnding_encloses h)]
  simp only [behind, if_neg hlength]
  exact ⟨_, rfl⟩

end Reader

/-! ## Contents -/

/-- The elements of a content at any depth, in document order. -/
def Content.descendants : Content → List Element
  | nil => []
  | element name attributes children rest =>
    ⟨name, attributes, children⟩ :: (children.descendants ++ rest.descendants)
  | text _ rest => rest.descendants
  | comment _ rest => rest.descendants

/-- A way to write a content: an element without content as a tag that closes itself or as two tags,
parts of a text in CDATA sections, and processing instructions anywhere. -/
inductive Renders : List Char → Content → Prop
  /-- Nothing is written for nothing. -/
  | nil : Renders [] .nil
  /-- An element as a tag that closes itself. -/
  | selfClosed {tag rest : List Char} {name : String} {attributes : Attributes} {after : Content}
    (htag : SpellsTag tag name attributes) (hrest : Renders rest after) :
    Renders ('<' :: (tag ++ '/' :: '>' :: rest)) (.element name attributes .nil after)
  /-- An element as a start tag and an end tag. -/
  | element {tag inner spaces rest : List Char} {name : String} {attributes : Attributes}
    {children after : Content} (htag : SpellsTag tag name attributes)
    (hinner : Renders inner children) (hspaces : AllSpace spaces) (hrest : Renders rest after) :
    Renders ('<' :: (tag ++ '>' :: (inner ++
      '<' :: ('/' :: (name.toList ++ spaces) ++ '>' :: rest))))
        (.element name attributes children after)
  /-- A text. -/
  | text {raw rest : List Char} {t : String} {after : Content}
    (ht : Spells MayStandInText raw t.toList) (hrest : Renders rest after) :
    Renders (raw ++ rest) (.text t after)
  /-- A text as a CDATA section. -/
  | characterData {rest : List Char} {t : String} {after : Content}
    (ht : ¬"]]>".toList <:+: t.toList) (hrest : Renders rest after) :
    Renders ('<' :: ("![CDATA[".toList ++ t.toList ++ "]]".toList ++ '>' :: rest))
      (.text t after)
  /-- A text in two parts. -/
  | joined {raw : List Char} {t u : String} {after : Content}
    (h : Renders raw (.text t (.text u after))) : Renders raw (.text (t ++ u) after)
  /-- A comment. -/
  | comment {rest : List Char} {t : String} {after : Content} (hrest : Renders rest after) :
    Renders ('<' :: ("!--".toList ++ t.toList ++ "-->".toList ++ rest)) (.comment t after)
  /-- A processing instruction, which is no part of the content. -/
  | instruction {t rest : List Char} {c : Content} (ht : ¬"?>".toList <:+: '?' :: t)
    (hrest : Renders rest c) : Renders ('<' :: ('?' :: t ++ ['?'] ++ '>' :: rest)) c

/-- The elements of a content are read in document order, however the content is written. -/
theorem Renders.readsTags {raw : List Char} {c : Content} (h : Renders raw c)
    (hc : c.IsWellNamed) (tail : List Char) (tags : List (List Char)) :
    ∃ ts, Reader.ReadsTags (raw ++ tail) tags ts tail tags ∧
      List.Forall₂ (fun tag e => tag.IsOf e.name e.attributes) ts c.descendants := by
  -- What stands in an element is read with one element more open, and the end tag comes behind it.
  induction h generalizing tail tags with
  | nil => exact ⟨[], .nil, .nil⟩
  | @selfClosed tag rest name attributes after htag hrest ih =>
    obtain ⟨hname, hattributes, -, hafter⟩ := hc
    obtain ⟨ts, hreads, hall⟩ := ih hafter tail tags
    have htext : '<' :: (tag ++ '/' :: '>' :: rest) ++ tail =
        '<' :: (tag ++ '/' :: '>' :: (rest ++ tail)) := by simp
    refine ⟨⟨tag⟩ :: ts, ?_, .cons (htag.isOf hname hattributes) hall⟩
    rw [htext]
    exact (Reader.readsTags_markup (Reader.markup_selfClosed_of_spells htag hname hattributes
      (rest ++ tail) tags)).append hreads
  | @element tag inner spaces rest name attributes children after htag hinner hspaces hrest
      ihInner ihRest =>
    obtain ⟨hname, hattributes, hchildren, hafter⟩ := hc
    have hend := Reader.readsTags_markup (Reader.markup_closed_of_spells hname hspaces
      (rest ++ tail) tags)
    obtain ⟨us, hreadsRest, hallRest⟩ := ihRest hafter tail tags
    obtain ⟨ts, hreadsInner, hallInner⟩ := ihInner hchildren
      ('<' :: ('/' :: (name.toList ++ spaces) ++ '>' :: (rest ++ tail))) (name.toList :: tags)
    have hstart := Reader.readsTags_markup (Reader.markup_opened_of_spells htag hname hattributes
      (inner ++ '<' :: ('/' :: (name.toList ++ spaces) ++ '>' :: (rest ++ tail))) tags)
    have htext : '<' :: (tag ++ '>' :: (inner ++
        '<' :: ('/' :: (name.toList ++ spaces) ++ '>' :: rest))) ++ tail =
          '<' :: (tag ++ '>' :: (inner ++
            '<' :: ('/' :: (name.toList ++ spaces) ++ '>' :: (rest ++ tail)))) := by simp
    refine ⟨⟨tag⟩ :: (ts ++ us), ?_, .cons (htag.isOf hname hattributes)
      (List.rel_append hallInner hallRest)⟩
    rw [htext]
    exact hstart.append (hreadsInner.append (hend.append hreadsRest))
  | @text raw rest t after ht hrest ih =>
    obtain ⟨ts, hreads, hall⟩ := ih hc tail tags
    have hraw : '<' ∉ raw := ht.not_mem rfl (by decide) fun h => h.1 rfl
    refine ⟨ts, ?_, hall⟩
    rw [List.append_assoc]
    exact (Reader.readsTags_text hraw (rest ++ tail) tags).append hreads
  | @characterData rest t after ht hrest ih =>
    obtain ⟨ts, hreads, hall⟩ := ih hc tail tags
    have htext : '<' :: ("![CDATA[".toList ++ t.toList ++ "]]".toList ++ '>' :: rest) ++ tail =
        '<' :: ("![CDATA[".toList ++ t.toList ++ "]]".toList ++ '>' :: (rest ++ tail)) := by simp
    refine ⟨ts, ?_, hall⟩
    rw [htext]
    exact (Reader.readsTags_markup (Reader.markup_characterData ht (rest ++ tail) tags)).append
      hreads
  | joined h ih => exact ih hc tail tags
  | @comment rest t after hrest ih =>
    obtain ⟨hcomment, hafter⟩ := hc
    obtain ⟨ts, hreads, hall⟩ := ih hafter tail tags
    have htext : '<' :: ("!--".toList ++ t.toList ++ "-->".toList ++ rest) ++ tail =
        '<' :: ("!--".toList ++ t.toList ++ "-->".toList ++ (rest ++ tail)) := by simp
    refine ⟨ts, ?_, hall⟩
    rw [htext]
    exact (Reader.readsTags_markup (Reader.markup_comment hcomment (rest ++ tail) tags)).append
      hreads
  | @instruction t rest c ht hrest ih =>
    obtain ⟨ts, hreads, hall⟩ := ih hc tail tags
    have htext : '<' :: ('?' :: t ++ ['?'] ++ '>' :: rest) ++ tail =
        '<' :: ('?' :: t ++ ['?'] ++ '>' :: (rest ++ tail)) := by simp
    refine ⟨ts, ?_, hall⟩
    rw [htext]
    exact (Reader.readsTags_markup (Reader.markup_instruction ht (rest ++ tail) tags)).append
      hreads

/-! ## Documents -/

/-- What may stand beside the root element: white space, comments and processing instructions. -/
inductive IsMisc : List Char → Prop
  /-- Nothing. -/
  | nil : IsMisc []
  /-- White space. -/
  | space {c : Char} {rest : List Char} (hc : isSpace c = true) (hrest : IsMisc rest) :
    IsMisc (c :: rest)
  /-- A comment. -/
  | comment {t rest : List Char} (ht : ¬"-->".toList <:+: t) (hrest : IsMisc rest) :
    IsMisc ('<' :: ("!--".toList ++ t ++ "-->".toList ++ rest))
  /-- A processing instruction, or the declaration of the document. -/
  | instruction {t rest : List Char} (ht : ¬"?>".toList <:+: '?' :: t) (hrest : IsMisc rest) :
    IsMisc ('<' :: ('?' :: t ++ ['?'] ++ '>' :: rest))

/-- A way to write a document with the given root element. A byte order mark may come first. -/
def RendersDocument (text : List Char) (root : Element) : Prop :=
  ∃ mark before body after, text = mark ++ (before ++ (body ++ after)) ∧
    (mark = [] ∨ mark = [Char.ofNat 0xFEFF]) ∧ IsMisc before ∧ Renders body root.toContent ∧
      IsMisc after

/-- There are no elements beside the root element. -/
theorem IsMisc.readsTags {misc : List Char} (h : IsMisc misc) (tail : List Char)
    (tags : List (List Char)) : Reader.ReadsTags (misc ++ tail) tags [] tail tags := by
  induction h with
  | nil => exact .nil
  | @space c rest hc hrest ih =>
    have hmem : '<' ∉ [c] := by
      rw [List.mem_singleton]
      rintro rfl
      cases hc
    exact (Reader.readsTags_text hmem (rest ++ tail) tags).append ih
  | @comment t rest ht hrest ih =>
    have htext : '<' :: ("!--".toList ++ t ++ "-->".toList ++ rest) ++ tail =
        '<' :: ("!--".toList ++ t ++ "-->".toList ++ (rest ++ tail)) := by simp
    rw [htext]
    exact (Reader.readsTags_markup (Reader.markup_comment ht (rest ++ tail) tags)).append ih
  | @instruction t rest ht hrest ih =>
    have htext : '<' :: ('?' :: t ++ ['?'] ++ '>' :: rest) ++ tail =
        '<' :: ('?' :: t ++ ['?'] ++ '>' :: (rest ++ tail)) := by simp
    rw [htext]
    exact (Reader.readsTags_markup (Reader.markup_instruction ht (rest ++ tail) tags)).append ih

/-- An element begins with its tag, or with a processing instruction before it. -/
theorem Renders.exists_of_element {raw : List Char} {name : String} {attributes : Attributes}
    {children after : Content} (h : Renders raw (.element name attributes children after)) :
    ∃ rest, raw = '<' :: rest := by
  cases h with
  | selfClosed htag hrest => exact ⟨_, rfl⟩
  | element htag hinner hspaces hrest => exact ⟨_, rfl⟩
  | instruction ht hrest => exact ⟨_, rfl⟩

/-- A document without a byte order mark is read from its first character on. -/
theorem Reader.ofChars_of_head {cs : List Char}
    (h : ∀ c, cs.head? = some c → c.toNat ≠ 0xFEFF) : Reader.ofChars cs = ⟨cs, 0, []⟩ := by
  cases cs with
  | nil => rfl
  | cons c cs => rw [Reader.ofChars, if_neg (h c rfl)]

namespace RendersDocument

variable {text : List Char} {root : Element}

/-- Nothing that is written for a document begins with a byte order mark. -/
theorem head_ne_mark {before body : List Char} (hbefore : IsMisc before)
    (hbody : ∃ rest, body = '<' :: rest) (after : List Char) :
    ∀ c, (before ++ (body ++ after)).head? = some c → c.toNat ≠ 0xFEFF := by
  intro c hc
  have hmarkup : '<'.toNat ≠ 0xFEFF := by decide
  cases hbefore with
  | nil =>
    obtain ⟨rest, rfl⟩ := hbody
    obtain rfl : '<' = c := Option.some.inj hc
    exact hmarkup
  | @space d rest hd hrest =>
    obtain rfl : d = c := Option.some.inj hc
    simp only [isSpace, Bool.or_eq_true, beq_iff_eq] at hd
    rcases hd with ((rfl | rfl) | rfl) | rfl <;> decide
  | comment ht hrest =>
    obtain rfl : '<' = c := Option.some.inj hc
    exact hmarkup
  | instruction ht hrest =>
    obtain rfl : '<' = c := Option.some.inj hc
    exact hmarkup

/-- The elements of a document are read in document order, and without a fault, however the document
is written. -/
theorem exists_startTags_events (h : RendersDocument text root) (hname : IsXmlName root.name)
    (hattributes : root.attributes.AreWellNamed) (hchildren : root.children.IsWellNamed) :
    List.Forall₂ (fun tag e => tag.IsOf e.name e.attributes)
      (startTags (events (String.ofList text)).items) (root :: root.children.descendants) ∧
        (events (String.ofList text)).failure = none := by
  obtain ⟨mark, before, body, after, rfl, hmark, hbefore, hbody, hafter⟩ := h
  have hroot : root.toContent.IsWellNamed := ⟨hname, hattributes, hchildren, trivial⟩
  obtain ⟨ts, hreads, hall⟩ := hbody.readsTags hroot after []
  have hend := hafter.readsTags [] []
  rw [List.append_nil] at hend
  have hdocument : Reader.ReadsTags (before ++ (body ++ after)) [] ts [] [] := by
    have hreads := ((hbefore.readsTags (body ++ after) []).append hreads).append hend
    rwa [List.append_nil, List.nil_append] at hreads
  have hstart : Reader.ofChars (mark ++ (before ++ (body ++ after))) =
      ⟨before ++ (body ++ after), 0, []⟩ := by
    have hhead := head_ne_mark hbefore hbody.exists_of_element after
    rcases hmark with rfl | rfl
    · rw [List.nil_append]
      exact Reader.ofChars_of_head hhead
    · rfl
  obtain ⟨consumed, htags, hfailure⟩ := hdocument 0
  have hnone : (Reader.mk [] consumed []).events = ⟨[], none⟩ := Reader.events_of_next_none rfl
  rw [hnone] at htags hfailure
  rw [events, String.toList_ofList, hstart, htags]
  refine ⟨?_, hfailure⟩
  simpa [startTags, Element.toContent, Content.descendants] using hall

end RendersDocument

end IntentFirewall.Xml
