import IntentFirewall.Proofs.Xml.Brackets
import IntentFirewall.Proofs.Xml.Loop
import IntentFirewall.Proofs.Xml.Rendering

/-!
# Documents with a root element

Which events a builder takes, and which of them make a root element.

## Main definitions

* `Event.IsTakenIn`, `AreTaken`: what is asked of one event and of all events of a document.
* `HasRoot`: what is asked of a document with a root element of a given name.

## Main results

* `Builder.isTakenIn_of_push`, `Builder.exists_push`: one event; `Builder.areTaken_of_foldlM`,
  `Builder.exists_foldlM_push`: all of them.
* `Steps.root_isSome_iff`: when the root element is set.
* `hasRoot_iff`: the documents with a root element.
* `map_bracket_startTags`: the elements of a document are its start tags.
-/

namespace IntentFirewall.Xml

/-! ## What is asked of events -/

/-- The characters that an event adds to the text of a document. -/
def Event.characters? : Event → Option (List Char)
  | .text raw => (unescape raw).toOption
  | .characterData content => some content
  | _ => none

/-- What is asked of an event that stands in the elements of the given names. -/
structure Event.IsTakenIn (names : List (List Char)) (e : Event) : Prop where
  /-- The attributes of a start tag can be read. -/
  attributes : ∀ tag, e.startTag? = some tag →
    ∃ attributes, Builder.readAttributes tag.attributes = .ok attributes
  /-- A text can be unescaped. -/
  text : ∀ raw, e = .text raw → ∃ cs, unescape raw = .ok cs
  /-- Outside all elements there is white space only. -/
  blank : names = [] → ∀ cs, e.characters? = some cs → Text.isBlankText (String.ofList cs) = true

/-- What is asked of all events. -/
structure AreTaken (es : List Event) : Prop where
  /-- The attributes of start tags can be read. -/
  attributes : ∀ tag ∈ startTags es,
    ∃ attributes, Builder.readAttributes tag.attributes = .ok attributes
  /-- Texts can be unescaped. -/
  texts : ∀ raw, Event.text raw ∈ es → ∃ cs, unescape raw = .ok cs
  /-- Outside all elements there is white space only. -/
  blank : ∀ e ∈ outermost [] es, ∀ cs, e.characters? = some cs →
    Text.isBlankText (String.ofList cs) = true

theorem areTaken_nil : AreTaken [] := by
  constructor <;> simp [startTags, outermost]

theorem areTaken_concat_iff {es : List Event} {e : Event} {names : List (List Char)}
    (h : es.foldlM Event.nest [] = some names) :
    AreTaken (es ++ [e]) ↔ AreTaken es ∧ e.IsTakenIn names := by
  have htags (tag : Tag) :
      tag ∈ startTags (es ++ [e]) ↔ tag ∈ startTags es ∨ e.startTag? = some tag := by
    rw [startTags_append, List.mem_append]
    simp [startTags]
  have houtside (f : Event) :
      f ∈ outermost [] (es ++ [e]) ↔ f ∈ outermost [] es ∨ names = [] ∧ f = e := by
    rw [outermost_concat h, List.mem_append]
    split <;> simp_all
  constructor
  · -- All of them are taken: so are those before the last one, and the last one.
    rintro ⟨hattributes, htexts, hblank⟩
    refine ⟨⟨?_, ?_, ?_⟩, ⟨?_, ?_, ?_⟩⟩
    · exact fun tag htag => hattributes tag ((htags tag).2 (.inl htag))
    · exact fun raw hraw => htexts raw (List.mem_append_left [e] hraw)
    · exact fun f hf => hblank f ((houtside f).2 (.inl hf))
    · exact fun tag htag => hattributes tag ((htags tag).2 (.inr htag))
    · exact fun raw hraw => htexts raw (hraw ▸ List.mem_append_right es List.mem_cons_self)
    · exact fun hnames => hblank e ((houtside e).2 (.inr ⟨hnames, rfl⟩))
  · rintro ⟨hes, he⟩
    refine ⟨fun tag htag => ?_, fun raw hraw => ?_, fun f hf => ?_⟩
    · rcases (htags tag).1 htag with htag | htag
      · exact hes.attributes tag htag
      · exact he.attributes tag htag
    · rcases List.mem_append.1 hraw with hraw | hraw
      · exact hes.texts raw hraw
      · exact he.text raw (List.mem_singleton.1 hraw).symm
    · rcases (houtside f).1 hf with hf | ⟨hnames, rfl⟩
      · exact hes.blank f hf
      · exact he.blank hnames

/-! ## What is taken -/

namespace Builder

variable {b b' : Builder} {e : Event} {es : List Event} {names : List (List Char)}

/-- A text that is taken outside all elements is white space. -/
theorem isBlankText_of_addText {t : String} (hopen : b.openTags = []) (h : b.addText t = .ok b') :
    Text.isBlankText t = true := by
  rcases addText_cases h with hnode | ⟨hblank, -⟩
  · obtain ⟨e, outer, hstack, -⟩ := addNode_cases hnode
    simp [openTags, hstack] at hopen
  · exact hblank

theorem isTakenIn_of_push (h : b.push e = .ok b') : e.IsTakenIn b.openTags := by
  cases e with
  | opened tag =>
    obtain ⟨attributes, hattributes, -⟩ := push_opened_eq_ok_iff.1 h
    refine ⟨?_, by simp, by simp [Event.characters?]⟩
    rintro _ ⟨⟩
    exact ⟨attributes, hattributes⟩
  | selfClosed tag =>
    obtain ⟨attributes, hattributes, -⟩ := push_selfClosed_eq_ok_iff.1 h
    refine ⟨?_, by simp, by simp [Event.characters?]⟩
    rintro _ ⟨⟩
    exact ⟨attributes, hattributes⟩
  | text raw =>
    obtain ⟨cs, hraw, htext⟩ := push_text_eq_ok_iff.1 h
    refine ⟨by simp [Event.startTag?], ?_, fun hopen ds hds => ?_⟩
    · rintro _ ⟨⟩
      exact ⟨cs, hraw⟩
    · obtain rfl : cs = ds := by simpa [Event.characters?, hraw, Except.toOption] using hds
      exact isBlankText_of_addText hopen htext
  | characterData content =>
    refine ⟨by simp [Event.startTag?], by simp, fun hopen ds hds => ?_⟩
    obtain rfl : content = ds := Option.some.inj hds
    exact isBlankText_of_addText hopen h
  | closed => constructor <;> simp [Event.startTag?, Event.characters?]
  | comment content => constructor <;> simp [Event.startTag?, Event.characters?]
  | ignored => constructor <;> simp [Event.startTag?, Event.characters?]

/-- An element is added if one is open, or if there is no root element yet. -/
theorem exists_attach (h : b.openTags = [] → b.root = none) (element : Element) :
    ∃ b', b.attach element = .ok b' := by
  cases hstack : b.stack with
  | nil => simp [attach, addNode, hstack, h (openTags_eq_nil_iff.2 hstack)]
  | cons f outer => simp [attach, addNode, hstack]

/-- A text is added if an element is open, or if it is white space. -/
theorem exists_addText {t : String} (h : b.openTags = [] → Text.isBlankText t = true) :
    ∃ b', b.addText t = .ok b' := by
  by_cases hblank : Text.isBlankText t = true
  · exact ⟨b, if_pos hblank⟩
  · cases hstack : b.stack with
    | nil => exact absurd (h (openTags_eq_nil_iff.2 hstack)) hblank
    | cons f outer => simp [addText, hblank, addNode, hstack]

/-- An event is taken as long as there is one element that stands in no other. -/
theorem exists_push (h : e.IsTakenIn b.openTags) (hnest : e.nest b.openTags = some names)
    (hsingle : (b.topNames ++ (e.topName? b.openTags).toList).length ≤ 1) :
    ∃ b', b.push e = .ok b' := by
  cases e with
  | opened tag =>
    obtain ⟨attributes, hattributes⟩ := h.attributes tag rfl
    exact ⟨_, push_opened_eq_ok_iff.2 ⟨attributes, hattributes, rfl⟩⟩
  | selfClosed tag =>
    obtain ⟨attributes, hattributes⟩ := h.attributes tag rfl
    have hroot : b.openTags = [] → b.root = none := by
      intro hopen
      cases hroot : b.root with
      | none => rfl
      | some root => simp [topNames, hopen, hroot, Event.topName?, Event.startTag?] at hsingle
    obtain ⟨b', hattach⟩ := exists_attach hroot ⟨String.ofList tag.name, attributes, .nil⟩
    exact ⟨b', push_selfClosed_eq_ok_iff.2 ⟨attributes, hattributes, hattach⟩⟩
  | closed =>
    cases hstack : b.stack with
    | nil => simp [Event.nest, openTags_eq_nil_iff.2 hstack] at hnest
    | cons f outer =>
      -- The element that ends may be the only one.
      have hroot : openTags ⟨outer, b.root⟩ = [] → b.root = none := by
        intro houter
        obtain rfl : outer = [] := openTags_eq_nil_iff.1 houter
        cases hroot : b.root with
        | none => rfl
        | some root => simp [topNames, openTags, hstack, hroot, Event.topName?] at hsingle
      obtain ⟨b', hattach⟩ := exists_attach hroot ⟨f.name, f.attributes, f.nodes.reverseAppend .nil⟩
      exact ⟨b', push_closed_eq_ok_iff.2 ⟨f, outer, hstack, hattach⟩⟩
  | text raw =>
    obtain ⟨cs, hraw⟩ := h.text raw rfl
    have hblank : b.openTags = [] → Text.isBlankText (String.ofList cs) = true := by
      intro hopen
      refine h.blank hopen cs ?_
      simp [Event.characters?, hraw, Except.toOption]
    obtain ⟨b', htext⟩ := exists_addText hblank
    exact ⟨b', push_text_eq_ok_iff.2 ⟨cs, hraw, htext⟩⟩
  | characterData content => exact exists_addText fun hopen => h.blank hopen content rfl
  | comment content => exact ⟨_, rfl⟩
  | ignored => exact ⟨b, rfl⟩

/-! ## Runs -/

/-- What is open in a builder is what the events say. -/
theorem nest_of_foldlM (h : es.foldlM push empty = .ok b) :
    es.foldlM Event.nest [] = some b.openTags :=
  foldlM_nest h

theorem topNames_of_foldlM (h : es.foldlM push empty = .ok b) : b.topNames = Xml.topNames es := by
  induction es using List.reverseRecOn generalizing b with
  | nil =>
    obtain rfl : empty = b := Except.ok.inj h
    rfl
  | append_singleton es e ih =>
    obtain ⟨b₁, hes, he⟩ := foldlM_concat_eq_ok_iff.1 h
    rw [topNames_of_push he, ih hes, topNames_concat (nest_of_foldlM hes)]

/-- The root element is set exactly if an element has ended that stands in no other one. -/
theorem root_isSome_iff_of_foldlM (h : es.foldlM push empty = .ok b) :
    b.root.isSome = true ↔ HasEnded es := by
  induction es using List.reverseRecOn generalizing b with
  | nil =>
    obtain rfl : empty = b := Except.ok.inj h
    simp [empty, not_hasEnded_nil]
  | append_singleton es e ih =>
    obtain ⟨b₁, hes, he⟩ := foldlM_concat_eq_ok_iff.1 h
    rw [hasEnded_concat_iff, ← ih hes, nest_of_foldlM h, Option.some_inj]
    rcases root_of_push_cases he with ⟨hend, htags, -, root, hroot, -⟩ | ⟨hend, hroot⟩
    · -- The last event is such an end.
      simp [hend, htags, hroot]
    · simp only [hroot, hend, or_false]

theorem areTaken_of_foldlM (h : es.foldlM push empty = .ok b) : AreTaken es := by
  induction es using List.reverseRecOn generalizing b with
  | nil => exact areTaken_nil
  | append_singleton es e ih =>
    obtain ⟨b₁, hes, he⟩ := foldlM_concat_eq_ok_iff.1 h
    exact (areTaken_concat_iff (nest_of_foldlM hes)).2 ⟨ih hes, isTakenIn_of_push he⟩

/-- Events are taken if at most one element stands in no other one. -/
theorem exists_foldlM_push (h : AreTaken es) (hnest : es.foldlM Event.nest [] = some names)
    (hsingle : (Xml.topNames es).length ≤ 1) : ∃ b, es.foldlM push empty = .ok b := by
  -- What is asked of the events is asked of the first ones, too, which leave a builder that takes
  -- the next one.
  induction es using List.reverseRecOn generalizing names with
  | nil => exact ⟨empty, rfl⟩
  | append_singleton es e ih =>
    rw [List.foldlM_append] at hnest
    obtain ⟨names', hes, he⟩ := Option.bind_eq_some_iff.1 hnest
    have he : e.nest names' = some names := by simpa using he
    obtain ⟨htaken, htakenIn⟩ := (areTaken_concat_iff hes).1 h
    rw [topNames_concat hes] at hsingle
    obtain ⟨b, hb⟩ := ih htaken hes (by rw [List.length_append] at hsingle; omega)
    obtain rfl : b.openTags = names' := Option.some.inj ((nest_of_foldlM hb).symm.trans hes)
    rw [← topNames_of_foldlM hb] at hsingle
    obtain ⟨b', hb'⟩ := exists_push htakenIn he hsingle
    exact ⟨b', foldlM_concat_eq_ok_iff.2 ⟨b, hb, hb'⟩⟩

end Builder

/-- The root element is set exactly if an element has ended that stands in no other one. -/
theorem Steps.root_isSome_iff {document : String} {es : List Event} {r : Reader} {b : Builder}
    (h : Steps document es r b) : b.root.isSome = true ↔ HasEnded es :=
  Builder.root_isSome_iff_of_foldlM h.foldlM_push

/-! ## Root elements -/

/-- What is asked of what is read of a document, so that it has a root element of a given name. -/
structure HasRoot (s : Scan SyntaxFault Event) (name : List Char) : Prop where
  /-- The markup is read without a fault. -/
  failure : s.failure = none
  /-- Its events are taken: what stands outside all elements is white space. -/
  taken : AreTaken s.items
  /-- At the end no element is open. -/
  ended : s.items.foldlM Event.nest [] = some []
  /-- One element stands in no other one, and has this name. -/
  single : topNames s.items = [name]

variable {document : String}

theorem readRoot_eq_ok {b : Builder} {root : Element} (hfailure : (events document).failure = none)
    (hfold : (events document).items.foldlM Builder.push .empty = .ok b) (hstack : b.stack = [])
    (hroot : b.root = some root) : readRoot document = .ok root := by
  simp [readRoot, hfailure, hfold, Builder.finish, hstack, hroot, bind, Except.bind]

/-- The documents with a root element. -/
theorem hasRoot_iff {name : List Char} :
    HasRoot (events document) name ↔
      ∃ root, readRoot document = .ok root ∧ root.name.toList = name := by
  constructor
  · rintro ⟨hfailure, htaken, hended, hsingle⟩
    obtain ⟨b, hfold⟩ := Builder.exists_foldlM_push htaken hended (by simp [hsingle])
    have htags : b.openTags = [] :=
      Option.some.inj ((Builder.nest_of_foldlM hfold).symm.trans hended)
    -- No element is open, so that the one name is that of the root element.
    rw [← Builder.topNames_of_foldlM hfold, Builder.topNames, htags] at hsingle
    cases hroot : b.root with
    | none => simp [hroot] at hsingle
    | some root =>
      have hstack := Builder.openTags_eq_nil_iff.1 htags
      exact ⟨root, readRoot_eq_ok hfailure hfold hstack hroot, by simpa [hroot] using hsingle⟩
  · rintro ⟨root, hread, rfl⟩
    obtain ⟨hfailure, b, hfold, hstack, hroot⟩ := exists_of_readRoot hread
    have htags := Builder.openTags_eq_nil_iff.2 hstack
    refine ⟨hfailure, Builder.areTaken_of_foldlM hfold, ?_, ?_⟩
    · rw [Builder.nest_of_foldlM hfold, htags]
    · rw [← Builder.topNames_of_foldlM hfold, Builder.topNames, htags, hroot]
      rfl

/-! ## Elements -/

theorem bracket_ne_closing (tag : Tag) : tag.bracket ≠ .closing := by
  unfold Tag.bracket
  split <;> simp

/-- Without end tags, the brackets of events are their start tags. -/
theorem filter_flatMap_brackets (es : List Event) :
    (es.flatMap Event.brackets).filter (· ≠ .closing) = (startTags es).map Tag.bracket := by
  induction es with
  | nil => rfl
  | cons e es ih =>
    rw [List.flatMap_cons, List.filter_append, ih, ← List.singleton_append, startTags_append]
    cases e <;> simp [Event.brackets, startTags, Event.startTag?, bracket_ne_closing]

/-- The bracket with which an element begins. -/
def Element.opening (e : Element) : Bracket := .opening e.name e.attributes

/-- Without end tags, the brackets of a content are its elements. -/
theorem Content.filter_brackets (c : Content) :
    c.brackets.filter (· ≠ .closing) = c.descendants.map Element.opening := by
  induction c with
  | nil => rfl
  | element name attributes children rest ihChildren ihRest =>
    simp [brackets, descendants, Element.opening, ← ihChildren, ← ihRest]
  | text t rest ih => exact ih
  | comment t rest ih => exact ih

/-- The start tags of a document are the elements of its root element, in document order. -/
theorem map_bracket_startTags {root : Element} (h : readRoot document = .ok root) :
    (startTags (events document).items).map Tag.bracket =
      (root :: root.children.descendants).map Element.opening := by
  rw [← filter_flatMap_brackets, ← scanBrackets, brackets_of_readRoot h, List.map_cons,
    ← Content.filter_brackets]
  simp [Element.brackets, Element.opening]

end IntentFirewall.Xml
