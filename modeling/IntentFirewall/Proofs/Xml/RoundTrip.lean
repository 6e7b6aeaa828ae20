import IntentFirewall.Proofs.Xml.Reading

/-!
# Reading what was written

The text of an element is read back as the element with its content in normal form.

* `Content.events`: the events that a content is read as.
* `Content.reads_print`: the text of a content is read as these events.
* `Content.foldlM_push_events`: these events build the content, in normal form.
* `readRoot_markup`, `readRoot_print`: both together, for the root element of a document.
-/

namespace IntentFirewall.Xml

namespace Content

/-- The events that a content is read as. -/
def events : Content → List Event
  | nil => []
  | element name attributes children rest =>
    (if children = nil then [.selfClosed ⟨printTag name attributes⟩]
      else .opened ⟨printTag name attributes⟩ :: children.events ++ [.closed]) ++ rest.events
  | text t rest => Reader.textEvents t.toList ++ rest.events
  | comment t rest => .comment t.toList :: rest.events

/-! ## From text to events -/

/-- Markup behind a line break is found again. -/
theorem skipSpace_breakUnless (afterText : Bool) (depth : Nat) (rest : List Char) :
    skipSpace (breakUnless afterText depth ++ '<' :: rest) = '<' :: rest := by
  cases afterText with
  | true => rfl
  | false =>
    have hspace : ∀ c ∈ breakUnless false depth, isSpace c = true := by
      intro c hc
      rcases List.mem_cons.1 hc with rfl | hc
      · rfl
      · rw [List.eq_of_mem_replicate hc]
        rfl
    rw [skipSpace, List.dropWhile_append_of_pos hspace]
    rfl

/-- Behind a text, markup follows at once. -/
theorem exists_print_of_beginsWithText {c : Content} (h : c.beginsWithText = false)
    {tail : List Char} (htail : c = nil → ∃ rest, tail = '<' :: rest) (depth : Nat) :
    ∃ rest, c.print depth true ++ tail = '<' :: rest := by
  cases c with
  | nil => exact htail rfl
  | element name attributes children rest =>
    by_cases hchildren : children = nil
    · rw [hchildren, print_element_nil]
      exact ⟨_, rfl⟩
    · rw [print_element hchildren]
      exact ⟨_, rfl⟩
  | text t rest => simp [beginsWithText] at h
  | comment t rest => exact ⟨_, rfl⟩

/-- A content that ends in a text still does so behind one more text. -/
theorem endsInText_text_of_endsInText {c : Content} (h : c.endsInText = true) (t : String) :
    (text t c).endsInText = true := by
  cases c <;> first | rfl | exact h

/-- What stands behind a content that ends in a text follows it at once. -/
theorem exists_closing_of_endsInText {c : Content} (h : c.endsInText = true) (depth : Nat)
    (name : String) (tail : List Char) :
    ∃ rest, breakUnless c.endsInText depth ++ printEndTag name ++ tail = '<' :: rest := by
  rw [h]
  exact ⟨_, rfl⟩

section

variable (name : String) (attributes : Attributes) (rest : Content) (depth : Nat)
  (afterText : Bool) (tail : List Char)

theorem print_element_nil_append :
    (element name attributes nil rest).print depth afterText ++ tail =
      breakUnless afterText depth ++ '<' :: (printTag name attributes ++ '/' :: '>' ::
        (rest.print depth false ++ tail)) := by
  simp [print_element_nil]

theorem print_element_append {children : Content} (h : children ≠ nil) :
    (element name attributes children rest).print depth afterText ++ tail =
      breakUnless afterText depth ++ '<' :: (printTag name attributes ++ '>' ::
        (children.print (depth + 1) false ++ (breakUnless children.endsInText depth ++
          printEndTag name ++ (rest.print depth false ++ tail)))) := by
  simp [print_element h]

theorem print_comment_append (t : String) :
    (comment t rest).print depth afterText ++ tail =
      breakUnless afterText depth ++ '<' :: ("!--".toList ++ t.toList ++ "-->".toList ++
        (rest.print depth false ++ tail)) := by
  simp [print_comment, show "<!--".toList = '<' :: "!--".toList from rfl]

theorem closing_append (opening : List Char) :
    opening ++ printEndTag name ++ tail =
      opening ++ '<' :: ('/' :: name.toList ++ '>' :: tail) := by
  simp [printEndTag]

end

/-- An element with content is read as its start tag, as what its content is read as, and as its
end tag. -/
theorem reads_element {name : String} {attributes : Attributes}
    (htag : IsReadableTag name attributes)
    (hquotes : tagEnding.pass none (printTag name attributes) = some none)
    (hslash : attributes = [] → name.toList.getLast? ≠ some '/')
    (hname : tagEnding.pass none name.toList = some none) {opening inner closing tail : List Char}
    (hopening : ∀ rest, skipSpace (opening ++ '<' :: rest) = '<' :: rest)
    (hclosing : ∀ rest, skipSpace (closing ++ '<' :: rest) = '<' :: rest)
    {es : List Event} {tags : List (List Char)}
    (hinner : Reader.Reads (inner ++ (closing ++ printEndTag name ++ tail)) (name.toList :: tags)
      es (closing ++ printEndTag name ++ tail) (name.toList :: tags)) :
    Reader.Reads (opening ++ '<' :: (printTag name attributes ++ '>' ::
      (inner ++ (closing ++ printEndTag name ++ tail)))) tags
      (.opened ⟨printTag name attributes⟩ :: es ++ [.closed]) tail tags := by
  have hopen := Reader.reads_markup (hopening _) (Reader.markup_opened htag hquotes hslash
    (inner ++ (closing ++ printEndTag name ++ tail)) tags)
  have hclose := Reader.reads_markup (hclosing _)
    (Reader.markup_closed htag.isName hname tail tags)
  rw [← closing_append] at hclose
  exact (hopen.append hinner).append hclose

/-- The text of a content is read as its events. -/
theorem reads_print {c : Content} (hreadable : c.IsReadable) (hdelimited : c.IsDelimited)
    (hmerged : c.IsMerged) (depth : Nat) (afterText : Bool) {tail : List Char}
    (htail : c.endsInText = true → ∃ rest, tail = '<' :: rest) (tags : List (List Char)) :
    Reader.Reads (c.print depth afterText ++ tail) tags c.events tail tags := by
  induction c generalizing depth afterText tail tags with
  | nil => exact .nil
  | element name attributes children rest ihChildren ihRest =>
    obtain ⟨htag, hname, hchildren, hrest⟩ := hreadable
    obtain ⟨⟨hquotes, hnamed, hslash⟩, hinside, hafter⟩ := hdelimited
    rw [endsInText_element] at htail
    have hbehind := ihRest hrest hafter hmerged.2 depth false htail tags
    by_cases hnil : children = nil
    · subst hnil
      have htag := Reader.reads_markup (skipSpace_breakUnless afterText depth _)
        (Reader.markup_selfClosed htag hquotes (fun hnone => hnamed hnone rfl)
          (rest.print depth false ++ tail) tags)
      rw [print_element_nil_append, events, if_pos rfl]
      exact htag.append hbehind
    · -- Behind a text the end tag follows without a break, so that the text ends at its `<`.
      have hinner := ihChildren hchildren hinside hmerged.1 (depth + 1) false
        (exists_closing_of_endsInText · depth name (rest.print depth false ++ tail))
        (name.toList :: tags)
      have helement := reads_element htag hquotes (fun hnone => hslash hnone hnil) (hname hnil)
        (skipSpace_breakUnless afterText depth)
        (skipSpace_breakUnless children.endsInText depth) hinner
      rw [print_element_append name attributes rest depth afterText tail hnil, events, if_neg hnil]
      exact helement.append hbehind
  | text t rest ih =>
    obtain ⟨hbegins, hmergedRest⟩ := hmerged
    have hmarkup : rest = nil → ∃ behind, tail = '<' :: behind := by
      rintro rfl
      exact htail rfl
    obtain ⟨behind, hbehind⟩ := exists_print_of_beginsWithText hbegins hmarkup depth
    have htext := Reader.reads_escape t.toList behind tags
    rw [← hbehind] at htext
    rw [print_text, List.append_assoc]
    exact htext.append (ih hreadable hdelimited hmergedRest depth true
      (fun h => htail (endsInText_text_of_endsInText h t)) tags)
  | comment t rest ih =>
    rw [endsInText_comment] at htail
    have hcomment := Reader.reads_markup (skipSpace_breakUnless afterText depth _)
      (Reader.markup_comment hreadable.1 (rest.print depth false ++ tail) tags)
    rw [print_comment_append]
    exact hcomment.append (ih hreadable.2 hdelimited hmerged depth false htail tags)

/-! ## From events to content -/

theorem append_nil (c : Content) : c.append nil = c := by
  induction c with
  | nil => rfl
  | element name attributes children rest ihChildren ihRest => rw [append, ihRest]
  | text t rest ih => rw [append, ih]
  | comment t rest ih => rw [append, ih]

theorem reverseAppend_reverseAppend (c d behind : Content) :
    (c.reverseAppend d).reverseAppend behind = d.reverseAppend (c.append behind) := by
  induction c generalizing d with
  | nil => rfl
  | element name attributes children rest ihChildren ihRest => rw [reverseAppend, ihRest]; rfl
  | text t rest ih => rw [reverseAppend, ih]; rfl
  | comment t rest ih => rw [reverseAppend, ih]; rfl

/-- The nodes of an element that has been closed are in document order again. -/
theorem reverseAppend_nil (c : Content) : (c.reverseAppend nil).reverseAppend nil = c := by
  rw [reverseAppend_reverseAppend, reverseAppend, append_nil]

/-- The event of a text adds the text to the innermost element, unless it is blank. -/
theorem foldlM_push_textEvents (t : String) (rest : Content) (name : String)
    (attributes : Attributes) (nodes : Content) (outer : List OpenElement)
    (root : Option Element) :
    ∃ nodes', (Reader.textEvents t.toList).foldlM Builder.push
        ⟨⟨name, attributes, nodes⟩ :: outer, root⟩ =
      .ok ⟨⟨name, attributes, nodes'⟩ :: outer, root⟩ ∧
      (text t rest).stripTexts.reverseAppend nodes = rest.stripTexts.reverseAppend nodes' := by
  have hstrip : stripSpace t = String.ofList (Text.trimBoth isSpace t.toList) := rfl
  by_cases hempty : Text.trimBoth isSpace t.toList = []
  · refine ⟨nodes, by rw [Reader.textEvents, if_pos hempty]; rfl, ?_⟩
    rw [stripTexts_text_of_blank (by rw [hstrip, hempty]; rfl)]
  · have hpush (b : Builder) : (Reader.textEvents t.toList).foldlM Builder.push b =
        b.addText (stripSpace t) := by
      rw [Reader.textEvents, if_neg hempty, List.foldlM_cons, Builder.push, unescape_escape, hstrip]
      simp
    -- What is left of a text can still be blank: Unicode has more white space than markup.
    cases hblank : Text.isBlankText (stripSpace t) with
    | true =>
      rw [stripTexts_text_of_blank hblank]
      exact ⟨nodes, by rw [hpush, Builder.addText, if_pos hblank], rfl⟩
    | false =>
      rw [stripTexts_text hblank]
      refine ⟨text (stripSpace t) nodes, ?_, rfl⟩
      rw [hpush, Builder.addText, if_neg (by simp [hblank])]
      rfl

/-- The events of a content add it to the innermost element, with its texts stripped. -/
theorem foldlM_push_events {c : Content} (h : c.IsReadable) (name : String)
    (attributes : Attributes) (nodes : Content) (outer : List OpenElement)
    (root : Option Element) :
    c.events.foldlM Builder.push ⟨⟨name, attributes, nodes⟩ :: outer, root⟩ =
      .ok ⟨⟨name, attributes, c.stripTexts.reverseAppend nodes⟩ :: outer, root⟩ := by
  induction c generalizing name attributes nodes outer root with
  | nil => rfl
  | element n as children rest ihChildren ihRest =>
    obtain ⟨htag, -, hchildren, hrest⟩ := h
    have hname : String.ofList (Tag.mk (printTag n as)).name = n := by
      rw [name_printTag htag.isName, String.ofList_toList]
    have hattributes := readAttributes_printTag htag.isName htag.areReadable
    by_cases hnil : children = nil
    · subst hnil
      have hpush : Builder.push ⟨⟨name, attributes, nodes⟩ :: outer, root⟩
          (.selfClosed ⟨printTag n as⟩) =
            .ok ⟨⟨name, attributes, element n as nil nodes⟩ :: outer, root⟩ := by
        rw [Builder.push, hattributes, hname]
        rfl
      rw [events, if_pos rfl, List.singleton_append, foldlM_cons_of_ok hpush]
      exact ihRest hrest name attributes _ outer root
    · have hopen : Builder.push ⟨⟨name, attributes, nodes⟩ :: outer, root⟩
          (.opened ⟨printTag n as⟩) =
            .ok ⟨⟨n, as, nil⟩ :: ⟨name, attributes, nodes⟩ :: outer, root⟩ := by
        rw [Builder.push, hattributes, hname]
        rfl
      have hclose : Builder.push ⟨⟨n, as, children.stripTexts.reverseAppend nil⟩ ::
          ⟨name, attributes, nodes⟩ :: outer, root⟩ .closed =
            .ok ⟨⟨name, attributes, element n as children.stripTexts nodes⟩ :: outer, root⟩ := by
        simp only [Builder.push, reverseAppend_nil]
        rfl
      have hinner := ihChildren hchildren n as nil (⟨name, attributes, nodes⟩ :: outer) root
      rw [events, if_neg hnil, List.append_assoc, List.cons_append, foldlM_cons_of_ok hopen,
        foldlM_append_of_ok hinner, List.singleton_append, foldlM_cons_of_ok hclose]
      exact ihRest hrest name attributes _ outer root
  | text t rest ih =>
    obtain ⟨nodes', hpush, hstrip⟩ :=
      foldlM_push_textEvents t rest name attributes nodes outer root
    rw [events, foldlM_append_of_ok hpush, hstrip]
    exact ih h name attributes nodes' outer root
  | comment t rest ih =>
    have hpush : Builder.push ⟨⟨name, attributes, nodes⟩ :: outer, root⟩ (.comment t.toList) =
        .ok ⟨⟨name, attributes, comment t nodes⟩ :: outer, root⟩ := by
      rw [Builder.push, String.ofList_toList]
      rfl
    rw [events, foldlM_cons_of_ok hpush]
    exact ih h.2 name attributes _ outer root

end Content

/-! ## Documents -/

variable (root : Element)

/-- The markup of a document: what is written for its root element, without the line break behind
it. -/
def Element.markup : List Char :=
  '<' :: printTag root.name root.attributes ++ '>' :: root.children.print 1 false ++
    breakUnless root.children.endsInText 0 ++ printEndTag root.name

theorem Element.print_eq_markup : root.print = root.markup ++ ['\n'] := root.print_eq

section

variable (hname : IsXmlName root.name) (hattributes : root.attributes.AreReadable)
  (hquotes : tagEnding.pass none (printTag root.name root.attributes) = some none)
  (hreadable : root.children.IsReadable) (hdelimited : root.children.IsDelimited)
include hname hattributes hquotes hreadable hdelimited

/-- The markup of a document is read as the events of its root element, whatever white space stands
behind it. -/
theorem events_markup (spaces : List Char) (hspaces : skipSpace spaces = []) :
    events (String.ofList (root.markup ++ spaces)) =
      ⟨.opened ⟨printTag root.name root.attributes⟩ :: root.children.mergeTexts.events ++ [.closed],
        none⟩ := by
  have htext : root.markup ++ spaces = [] ++ '<' :: (printTag root.name root.attributes ++ '>' ::
      (root.children.mergeTexts.print 1 false ++
        (breakUnless root.children.endsInText 0 ++ printEndTag root.name ++ spaces))) := by
    simp [Element.markup, Content.print_mergeTexts]
  have hstart : Reader.ofChars (root.markup ++ spaces) = ⟨root.markup ++ spaces, 0, []⟩ := by
    rw [htext]
    rfl
  have hclosing : root.children.mergeTexts.endsInText = true → ∃ behind,
      breakUnless root.children.endsInText 0 ++ printEndTag root.name ++ spaces =
        '<' :: behind := by
    intro h
    rw [← Content.endsInText_mergeTexts, h]
    exact ⟨_, rfl⟩
  have hinner := Content.reads_print (Content.isReadable_mergeTexts hreadable)
    (Content.isDelimited_mergeTexts.2 hdelimited) root.children.isMerged_mergeTexts 1 false hclosing
    [root.name.toList]
  have hopening (rest : List Char) : skipSpace ([] ++ '<' :: rest) = '<' :: rest := rfl
  have hroot := Content.reads_element (hname.isReadableTag hattributes) hquotes
    (fun _ => hname.getLast?_ne_slash) hname.pass hopening
    (Content.skipSpace_breakUnless root.children.endsInText 0) hinner
  rw [← htext] at hroot
  obtain ⟨consumed, hread⟩ := hroot 0
  have hend : (Reader.mk spaces consumed []).events = ⟨[], none⟩ := by
    refine Reader.events_of_next_none ?_
    simp only [Reader.next, Reader.skip, hspaces]
  rw [events, String.toList_ofList, hstart, hread, hend]
  simp [Scan.prepend]

/-- The root element of a document is read back with its content in normal form. -/
theorem readRoot_markup (spaces : List Char) (hspaces : skipSpace spaces = []) :
    readRoot (String.ofList (root.markup ++ spaces)) =
      .ok ⟨root.name, root.attributes, root.children.normal⟩ := by
  have htag := hname.isReadableTag hattributes
  have hopen : Builder.empty.push (.opened ⟨printTag root.name root.attributes⟩) =
      .ok ⟨[⟨root.name, root.attributes, .nil⟩], none⟩ := by
    rw [Builder.push, readAttributes_printTag htag.isName hattributes, name_printTag htag.isName,
      String.ofList_toList]
    rfl
  have hinner := Content.foldlM_push_events (Content.isReadable_mergeTexts hreadable) root.name
    root.attributes .nil [] none
  have hclose : Builder.push
      ⟨[⟨root.name, root.attributes, root.children.normal.reverseAppend .nil⟩], none⟩ .closed =
        .ok ⟨[], some ⟨root.name, root.attributes, root.children.normal⟩⟩ := by
    simp only [Builder.push, Content.reverseAppend_nil]
    rfl
  rw [readRoot, events_markup root hname hattributes hquotes hreadable hdelimited _ hspaces,
    List.cons_append, foldlM_cons_of_ok hopen, foldlM_append_of_ok hinner, ← Content.normal,
    foldlM_cons_of_ok hclose]
  rfl

/-- The root element of a document is read back from its whole text. -/
theorem readRoot_print :
    readRoot (String.ofList root.print) =
      .ok ⟨root.name, root.attributes, root.children.normal⟩ := by
  rw [root.print_eq_markup]
  exact readRoot_markup root hname hattributes hquotes hreadable hdelimited _ rfl

end

end IntentFirewall.Xml
