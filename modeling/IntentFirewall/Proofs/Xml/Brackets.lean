import IntentFirewall.Proofs.Xml.Building
import IntentFirewall.Proofs.Xml.RoundTrip

/-!
# The brackets of a document

A content without its texts and comments is a sequence of brackets: every element opens one and
closes one. The tags of a document are such a sequence, too, and the document is the one content
whose brackets they are.

* `Content.brackets`, `Event.brackets`: the brackets of a content and of an event.
* `Builder.brackets_of_foldlM`: events add their brackets to what has been built.
* `brackets_of_readRoot`: the brackets of a root element are those of the events that it was read
  from.
* `Content.brackets_normal`, `Content.brackets_events`: those of a normal form, and of the events
  that a written content is read as.
-/

namespace IntentFirewall.Xml

/-- A side of an element. -/
inductive Bracket
  /-- The element begins. -/
  | opening (name : String) (attributes : Attributes)
  /-- The innermost element ends. -/
  | closing
  /-- A tag that no element begins with, as its attributes cannot be read. -/
  | broken
  deriving DecidableEq, Repr

/-- The brackets of a content, in document order. -/
def Content.brackets : Content → List Bracket
  | nil => []
  | element name attributes children rest =>
    .opening name attributes :: (children.brackets ++ .closing :: rest.brackets)
  | text _ rest => rest.brackets
  | comment _ rest => rest.brackets

/-- The brackets of an element. -/
def Element.brackets (e : Element) : List Bracket :=
  .opening e.name e.attributes :: (e.children.brackets ++ [.closing])

/-- The bracket that a tag opens. -/
def Tag.bracket (t : Tag) : Bracket :=
  match Builder.readAttributes t.attributes with
  | .ok attributes => .opening (String.ofList t.name) attributes
  | .error _ => .broken

/-- The brackets of an event. -/
def Event.brackets : Event → List Bracket
  | .opened tag => [tag.bracket]
  | .selfClosed tag => [tag.bracket, .closing]
  | .closed => [.closing]
  | _ => []

/-- The brackets of the events of a scan. -/
def scanBrackets (s : Scan SyntaxFault Event) : List Bracket := s.items.flatMap Event.brackets

theorem scanBrackets_prepend (es : List Event) (s : Scan SyntaxFault Event) :
    scanBrackets (s.prepend es) = es.flatMap Event.brackets ++ scanBrackets s :=
  List.flatMap_append

theorem bracket_of_readAttributes {t : Tag} {attributes : Attributes}
    (h : Builder.readAttributes t.attributes = .ok attributes) :
    t.bracket = .opening (String.ofList t.name) attributes := by
  rw [Tag.bracket, h]

/-! ## Contents -/

namespace Content

theorem brackets_reverseAppend (c d : Content) :
    (c.reverseAppend d).brackets = (c.reverseAppend nil).brackets ++ d.brackets := by
  -- A node goes to the front of what is behind, so that both sides take one step.
  induction c generalizing d with
  | nil => rfl
  | element name attributes children rest ihChildren ihRest =>
    rw [reverseAppend, ihRest, reverseAppend, ihRest (element name attributes children nil)]
    simp [brackets]
  | text t rest ih =>
    rw [reverseAppend, ih, reverseAppend, ih (text t nil)]
    simp [brackets]
  | comment t rest ih =>
    rw [reverseAppend, ih, reverseAppend, ih (comment t nil)]
    simp [brackets]

theorem brackets_mergeTexts (c : Content) : c.mergeTexts.brackets = c.brackets := by
  induction c with
  | nil => rfl
  | element name attributes children rest ihChildren ihRest =>
    rw [mergeTexts, brackets, ihChildren, ihRest, brackets]
  | text t rest ih =>
    rw [mergeTexts, brackets, ← ih]
    cases rest.mergeTexts <;> rfl
  | comment t rest ih => exact ih

theorem brackets_stripTexts (c : Content) : c.stripTexts.brackets = c.brackets := by
  induction c with
  | nil => rfl
  | element name attributes children rest ihChildren ihRest =>
    rw [stripTexts, brackets, ihChildren, ihRest, brackets]
  | text t rest ih =>
    rw [stripTexts]
    split <;> exact ih
  | comment t rest ih => exact ih

/-- The normal form has the same brackets. -/
theorem brackets_normal (c : Content) : c.normal.brackets = c.brackets := by
  rw [normal, brackets_stripTexts, brackets_mergeTexts]

/-- A written tag opens the bracket of its element. -/
theorem bracket_printTag {name : String} {attributes : Attributes}
    (h : IsReadableTag name attributes) :
    (Tag.mk (printTag name attributes)).bracket = .opening name attributes := by
  rw [bracket_of_readAttributes (readAttributes_printTag h.isName h.areReadable),
    name_printTag h.isName, String.ofList_toList]

theorem brackets_textEvents (t : List Char) :
    (Reader.textEvents t).flatMap Event.brackets = [] := by
  unfold Reader.textEvents
  split <;> rfl

/-- What a content is written as has its brackets. -/
theorem brackets_events {c : Content} (h : c.IsReadable) :
    c.events.flatMap Event.brackets = c.brackets := by
  induction c with
  | nil => rfl
  | element name attributes children rest ihChildren ihRest =>
    obtain ⟨htag, -, hchildren, hrest⟩ := h
    have hbracket := bracket_printTag htag
    rw [events, List.flatMap_append, ihRest hrest, brackets, ← ihChildren hchildren]
    split
    next hnil => simp [hnil, events, Event.brackets, hbracket]
    next => simp [Event.brackets, hbracket]
  | text t rest ih => rw [events, List.flatMap_append, brackets_textEvents, ih h]; rfl
  | comment t rest ih => exact ih h.2

end Content

/-! ## Builders -/

/-- The brackets of an element that is still open. -/
def OpenElement.brackets (e : OpenElement) : List Bracket :=
  .opening e.name e.attributes :: (e.nodes.reverseAppend .nil).brackets

namespace Builder

/-- The brackets of what has been built: first the root element that has been closed, then the open
elements, outermost first. -/
def brackets (b : Builder) : List Bracket :=
  b.root.elim [] Element.brackets ++ b.stack.reverse.flatMap OpenElement.brackets

variable {b b' : Builder}

theorem brackets_cons (e : OpenElement) (outer : List OpenElement) (root : Option Element) :
    brackets ⟨e :: outer, root⟩ = brackets ⟨outer, root⟩ ++ e.brackets := by
  simp [brackets]

/-- A node adds its brackets to those of the innermost element. -/
theorem brackets_of_addNode {node : Content → Content} {added : List Bracket}
    (hnode : ∀ c, ((node c).reverseAppend .nil).brackets = (c.reverseAppend .nil).brackets ++ added)
    (h : b.addNode node = some b') : b'.brackets = b.brackets ++ added := by
  obtain ⟨stack, root⟩ := b
  obtain ⟨e, outer, rfl, rfl⟩ := addNode_cases h
  rw [brackets_cons, brackets_cons, OpenElement.brackets, OpenElement.brackets, hnode]
  simp

theorem brackets_of_attach {e : Element} (h : b.attach e = .ok b') :
    b'.brackets = b.brackets ++ e.brackets := by
  rcases attach_cases h with hnode | ⟨hstack, hroot, rfl⟩
  · refine brackets_of_addNode (fun c => ?_) hnode
    rw [Content.reverseAppend, Content.brackets_reverseAppend]
    rfl
  · -- Without an open element this is the root element, before which there is nothing.
    simp [brackets, hstack, hroot]

theorem brackets_of_addText {t : String} (h : b.addText t = .ok b') : b'.brackets = b.brackets := by
  rcases addText_cases h with hnode | ⟨-, rfl⟩
  · rw [← List.append_nil b.brackets]
    refine brackets_of_addNode (fun c => ?_) hnode
    rw [Content.reverseAppend, Content.brackets_reverseAppend]
    rfl
  · rfl

/-- An event adds its brackets. -/
theorem brackets_of_push {e : Event} (h : b.push e = .ok b') :
    b'.brackets = b.brackets ++ e.brackets := by
  cases e with
  | opened tag =>
    obtain ⟨attributes, hattributes, rfl⟩ := push_opened_eq_ok_iff.1 h
    rw [brackets_cons, Event.brackets, bracket_of_readAttributes hattributes]
    rfl
  | selfClosed tag =>
    obtain ⟨attributes, hattributes, hattach⟩ := push_selfClosed_eq_ok_iff.1 h
    rw [brackets_of_attach hattach, Event.brackets, bracket_of_readAttributes hattributes]
    rfl
  | closed =>
    obtain ⟨stack, root⟩ := b
    obtain ⟨e, outer, rfl, hattach⟩ := push_closed_eq_ok_iff.1 h
    -- The element was open with all of its nodes, so that only its end is new.
    rw [brackets_of_attach hattach, brackets_cons]
    simp [Element.brackets, OpenElement.brackets, Event.brackets]
  | text raw =>
    obtain ⟨cs, -, htext⟩ := push_text_eq_ok_iff.1 h
    rw [brackets_of_addText htext]
    simp [Event.brackets]
  | characterData content =>
    rw [brackets_of_addText h]
    simp [Event.brackets]
  | comment content =>
    rcases push_comment_cases h with hnode | rfl
    · refine brackets_of_addNode (fun c => ?_) hnode
      rw [Content.reverseAppend, Content.brackets_reverseAppend]
      rfl
    · simp [Event.brackets]
  | ignored =>
    obtain rfl := Except.ok.inj h
    simp [Event.brackets]

/-- Events add their brackets one after the other. -/
theorem brackets_of_foldlM {es : List Event} (h : es.foldlM push b = .ok b') :
    b'.brackets = b.brackets ++ es.flatMap Event.brackets := by
  induction es generalizing b with
  | nil =>
    obtain rfl : b = b' := Except.ok.inj h
    simp
  | cons e es ih =>
    obtain ⟨b₁, hpush, hrest⟩ := foldlM_cons_eq_ok_iff.1 h
    rw [ih hrest, brackets_of_push hpush, List.flatMap_cons, List.append_assoc]

end Builder

/-- The root element of a document has the brackets of its tags. -/
theorem brackets_of_readRoot {document : String} {root : Element}
    (h : readRoot document = .ok root) : scanBrackets (events document) = root.brackets := by
  rw [readRoot] at h
  cases hfold : (events document).items.foldlM Builder.push Builder.empty with
  | error f => simp [hfold, bind, Except.bind] at h
  | ok b =>
    have hbrackets := Builder.brackets_of_foldlM hfold
    simp only [hfold, bind, Except.bind] at h
    split at h
    · simp at h
    · rw [Builder.finish] at h
      split at h
      · simp at h
      · simp at h
      next hstack hroot =>
        obtain rfl := Except.ok.inj h
        -- At the end no element is open, and before the first event nothing was built.
        rw [Builder.brackets, hstack, hroot] at hbrackets
        simpa [Builder.brackets, Builder.empty, scanBrackets] using hbrackets.symm

end IntentFirewall.Xml
