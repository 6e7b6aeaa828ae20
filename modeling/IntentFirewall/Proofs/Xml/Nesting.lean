import IntentFirewall.Proofs.Xml.Prefix

/-!
# Nested events

Which elements are open between two events is told by the events alone: a start tag opens an element
and an end tag closes the innermost one. A reader and a builder both agree with that.

## Main definitions

* `Event.nest`: the open elements behind an event.
* `outermost`: the events that stand in no element.
* `topNames`: the names of the elements that stand in no other one.
* `HasEnded`: such an element has ended.

## Main results

* `Reader.nest_of_next`, `Builder.nest_of_push`: the open elements of a reader and of a builder.
* `Builder.topNames_of_push`, `Builder.root_of_push_cases`: what an event means for the elements
  that stand in no other one.
-/

namespace IntentFirewall.Xml

/-! ## Open elements -/

/-- The names of the elements that are open behind an event, given those that are open before it,
innermost first. -/
def Event.nest (names : List (List Char)) : Event → Option (List (List Char))
  | .opened tag => some (tag.name :: names)
  | .closed => names.tail?
  | _ => some names

namespace Reader

variable {r r' : Reader} {e : Event}

theorem openTags_ofChars (cs : List Char) : (ofChars cs).openTags = [] := by
  rw [ofChars.eq_def]
  split
  · split <;> rfl
  · rfl

/-- What is open behind an event is what its kind says. -/
theorem nest_of_next (h : r.next = .ok (some (e, r'))) :
    e.nest r.openTags = some r'.openTags := by
  have hsound := isSound_of_next h
  cases e with
  | opened tag => rw [Event.nest, hsound.1]
  | closed =>
    obtain ⟨name, htags, -⟩ := hsound
    rw [htags]
    rfl
  | selfClosed tag => simp [Event.nest, hsound.1]
  | comment content => simp [Event.nest, hsound.1]
  | _ => exact congrArg some (Eq.symm hsound)

end Reader

namespace Builder

variable {b b' : Builder}

theorem openTags_of_addNode {node : Content → Content} (h : b.addNode node = some b') :
    b'.openTags = b.openTags := by
  obtain ⟨e, outer, hstack, rfl⟩ := addNode_cases h
  simp [openTags, hstack]

theorem openTags_of_attach {e : Element} (h : b.attach e = .ok b') :
    b'.openTags = b.openTags := by
  rcases attach_cases h with hnode | ⟨-, -, rfl⟩
  · exact openTags_of_addNode hnode
  · rfl

theorem openTags_of_addText {t : String} (h : b.addText t = .ok b') :
    b'.openTags = b.openTags := by
  rcases addText_cases h with hnode | ⟨-, rfl⟩
  · exact openTags_of_addNode hnode
  · rfl

/-- The elements that are open in a builder are those that the events leave open. -/
theorem nest_of_push {e : Event} (h : b.push e = .ok b') :
    e.nest b.openTags = some b'.openTags := by
  cases e with
  | opened tag =>
    obtain ⟨attributes, -, rfl⟩ := push_opened_eq_ok_iff.1 h
    simp [Event.nest, openTags]
  | selfClosed tag =>
    obtain ⟨attributes, -, hattach⟩ := push_selfClosed_eq_ok_iff.1 h
    exact congrArg some (openTags_of_attach hattach).symm
  | closed =>
    obtain ⟨e, outer, hstack, hattach⟩ := push_closed_eq_ok_iff.1 h
    rw [openTags_of_attach hattach, openTags, hstack]
    rfl
  | text raw =>
    obtain ⟨cs, -, htext⟩ := push_text_eq_ok_iff.1 h
    exact congrArg some (openTags_of_addText htext).symm
  | characterData content => exact congrArg some (openTags_of_addText h).symm
  | comment content =>
    rcases push_comment_cases h with hnode | rfl
    · exact congrArg some (openTags_of_addNode hnode).symm
    · rfl
  | ignored =>
    obtain rfl := Except.ok.inj h
    rfl

theorem foldlM_nest {es : List Event} (h : es.foldlM push b = .ok b') :
    es.foldlM Event.nest b.openTags = some b'.openTags := by
  induction es generalizing b with
  | nil =>
    obtain rfl : b = b' := Except.ok.inj h
    rfl
  | cons e es ih =>
    obtain ⟨b₁, hpush, hrest⟩ := foldlM_cons_eq_ok_iff.1 h
    rw [List.foldlM_cons, nest_of_push hpush]
    exact ih hrest

end Builder

/-! ## Events that stand in no element -/

/-- The events that stand in no element, given the names of the elements that are open before the
first one. -/
def outermost : List (List Char) → List Event → List Event
  | _, [] => []
  | names, e :: es =>
    let behind := outermost ((e.nest names).getD []) es
    if names = [] then e :: behind else behind

/-- The names of the elements that stand in no other one, in document order. -/
def topNames (es : List Event) : List (List Char) := (startTags (outermost [] es)).map Tag.name

/-- The name of an element that an event begins in no other one, given those that are open. -/
def Event.topName? (names : List (List Char)) (e : Event) : Option (List Char) :=
  if names = [] then e.startTag?.map Tag.name else none

/-- An event that ends an element. -/
def Event.IsEnd : Event → Prop
  | .selfClosed _ => True
  | .closed => True
  | _ => False

/-- An element has ended that stands in no other one: behind its end no element is open. -/
def HasEnded (es : List Event) : Prop :=
  ∃ front e, front ++ [e] <+: es ∧ e.IsEnd ∧ (front ++ [e]).foldlM Event.nest [] = some []

section

variable {names names' : List (List Char)} {es : List Event} {e : Event}

theorem outermost_concat (h : es.foldlM Event.nest names = some names') :
    outermost names (es ++ [e]) = outermost names es ++ if names' = [] then [e] else [] := by
  induction es generalizing names with
  | nil =>
    obtain rfl : names = names' := Option.some.inj h
    simp [outermost]
  | cons f es ih =>
    rw [List.foldlM_cons] at h
    obtain ⟨next, hnext, hrest⟩ := Option.bind_eq_some_iff.1 h
    simp only [List.cons_append, outermost, hnext, Option.getD_some, ih hrest]
    split <;> rfl

theorem startTags_append (es fs : List Event) :
    startTags (es ++ fs) = startTags es ++ startTags fs :=
  List.filterMap_append

theorem topNames_concat (h : es.foldlM Event.nest [] = some names) :
    topNames (es ++ [e]) = topNames es ++ (e.topName? names).toList := by
  rw [topNames, outermost_concat h, startTags_append, List.map_append, ← topNames, Event.topName?]
  by_cases hnames : names = []
  · cases htag : e.startTag? <;> simp [hnames, startTags, htag]
  · simp [hnames, startTags]

theorem not_hasEnded_nil : ¬HasEnded [] := by
  rintro ⟨front, e, hfront, -⟩
  simp at hfront

theorem hasEnded_concat_iff : HasEnded (es ++ [e]) ↔
    HasEnded es ∨ e.IsEnd ∧ (es ++ [e]).foldlM Event.nest [] = some [] := by
  constructor
  · rintro ⟨front, f, hfront, hend, hnest⟩
    rcases List.prefix_concat_iff.1 hfront with heq | hfront
    · obtain ⟨rfl, hlast⟩ := List.append_inj' heq rfl
      obtain rfl := List.singleton_inj.1 hlast
      exact .inr ⟨hend, hnest⟩
    · exact .inl ⟨front, f, hfront, hend, hnest⟩
  · rintro (⟨front, f, hfront, hend, hnest⟩ | ⟨hend, hnest⟩)
    · exact ⟨front, f, hfront.trans (List.prefix_append es [e]), hend, hnest⟩
    · exact ⟨es, e, List.prefix_rfl, hend, hnest⟩

end

namespace Builder

variable {b b' : Builder} {tag : Tag}

theorem openTags_eq_nil_iff : b.openTags = [] ↔ b.stack = [] := List.map_eq_nil_iff

/-- An element that ends is the root element or a node of the innermost open one. -/
theorem root_of_attach_cases {e : Element} (h : b.attach e = .ok b') :
    b.openTags = [] ∧ b.root = none ∧ b'.openTags = [] ∧ b'.root = some e ∨
      b.openTags ≠ [] ∧ b'.openTags = b.openTags ∧ b'.root = b.root := by
  rcases attach_cases h with hnode | ⟨hstack, hroot, rfl⟩
  · obtain ⟨f, outer, hstack, -⟩ := addNode_cases hnode
    have hopen : b.openTags ≠ [] := by simp [openTags, hstack]
    exact .inr ⟨hopen, openTags_of_addNode hnode, root_of_addNode hnode⟩
  · have hnone := openTags_eq_nil_iff.2 hstack
    exact .inl ⟨hnone, hroot, hnone, rfl⟩

/-- The root element is set at the end of an element that stands in no other one, and its name is
the one that was open there or is the one in the tag that is its own end tag. -/
theorem root_of_push_cases {e : Event} (h : b.push e = .ok b') :
    (e.IsEnd ∧ b'.openTags = [] ∧ b.root = none ∧ ∃ root, b'.root = some root ∧
        b.openTags.getLast?.toList ++ (e.topName? b.openTags).toList = [root.name.toList]) ∨
      ¬(e.IsEnd ∧ b'.openTags = []) ∧ b'.root = b.root := by
  cases e with
  | opened tag =>
    obtain ⟨attributes, -, rfl⟩ := push_opened_eq_ok_iff.1 h
    exact .inr ⟨fun hend => hend.1, rfl⟩
  | selfClosed tag =>
    obtain ⟨attributes, -, hattach⟩ := push_selfClosed_eq_ok_iff.1 h
    rcases root_of_attach_cases hattach with ⟨hnone, hroot, htags, hroot'⟩ | ⟨hsome, htags, hroot⟩
    · refine .inl ⟨trivial, htags, hroot, _, hroot', ?_⟩
      simp [hnone, Event.topName?, Event.startTag?]
    · exact .inr ⟨fun hend => hsome (htags ▸ hend.2), hroot⟩
  | closed =>
    obtain ⟨e, outer, hstack, hattach⟩ := push_closed_eq_ok_iff.1 h
    rcases root_of_attach_cases hattach with ⟨hnone, hroot, htags, hroot'⟩ | ⟨hsome, htags, hroot⟩
    · -- Nothing is open behind the element, so that it was the only one before.
      obtain rfl : outer = [] := openTags_eq_nil_iff.1 hnone
      refine .inl ⟨trivial, htags, hroot, _, hroot', ?_⟩
      simp [openTags, hstack, Event.topName?]
    · exact .inr ⟨fun hend => hsome (htags ▸ hend.2), hroot⟩
  | text raw => exact .inr ⟨fun hend => hend.1, root_of_push_text h⟩
  | characterData content => exact .inr ⟨fun hend => hend.1, root_of_addText h⟩
  | comment content =>
    refine .inr ⟨fun hend => hend.1, ?_⟩
    rcases push_comment_cases h with hnode | rfl
    · exact root_of_addNode hnode
    · rfl
  | ignored =>
    obtain rfl := Except.ok.inj h
    exact .inr ⟨fun hend => hend.1, rfl⟩

/-- The names of the elements that a builder has in no other one. -/
def topNames (b : Builder) : List (List Char) :=
  (b.root.map (·.name.toList)).toList ++ b.openTags.getLast?.toList

/-- An event adds the name of an element that it begins in no other one. -/
theorem topNames_of_push {e : Event} (h : b.push e = .ok b') :
    b'.topNames = b.topNames ++ (e.topName? b.openTags).toList := by
  have hnest := nest_of_push h
  rcases root_of_push_cases h with ⟨-, htags, hroot, root, hroot', hname⟩ | ⟨hend, hroot⟩
  · -- There was no root element, so that the name that was open is the one that it has now.
    simp [topNames, htags, hroot, hroot', hname]
  · -- The outermost open element stays, or is the one that is new.
    have hlast : b'.openTags.getLast?.toList =
        b.openTags.getLast?.toList ++ (e.topName? b.openTags).toList := by
      cases e with
      | opened tag =>
        rw [← Option.some.inj hnest]
        cases hopen : b.openTags with
        | nil => simp [Event.topName?, Event.startTag?]
        | cons name names => simp [Event.topName?]
      | selfClosed tag =>
        obtain htags : b.openTags = b'.openTags := Option.some.inj hnest
        have hsome : b.openTags ≠ [] := fun hnone => hend ⟨trivial, htags ▸ hnone⟩
        simp [← htags, Event.topName?, hsome]
      | closed =>
        have hsome : b'.openTags ≠ [] := fun hnone => hend ⟨trivial, hnone⟩
        cases hopen : b.openTags with
        | nil => simp [Event.nest, hopen] at hnest
        | cons name names =>
          obtain rfl : names = b'.openTags := by simpa [Event.nest, hopen] using hnest
          simp [Event.topName?, List.getLast?_cons_of_ne_nil hsome]
      | _ =>
        rw [← Option.some.inj hnest]
        simp [Event.topName?, Event.startTag?]
    rw [topNames, topNames, hroot, hlast, List.append_assoc]

end Builder
end IntentFirewall.Xml
