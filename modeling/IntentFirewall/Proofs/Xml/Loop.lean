import IntentFirewall.Proofs.Xml.Nesting

/-!
# Reading a document event by event

The root element of a document is read in a loop: the reader gives one event, and the builder takes
it. Each keeps for itself which elements are open, and they never disagree.

## Main definitions

* `Steps`: the states between two events.
* `ending?`: how the loop ends.

## Main results

* `exists_ending`: the loop ends, with what is read.
* `Steps.openTags_eq`: what is open in the builder is what is open in the reader.
* `Steps.push_ne_unbalancedEnd`: no end tag is read that the builder has no element for.
-/

namespace IntentFirewall.Xml

/-! ## The loop -/

/-- The states in which the next event is read: the events so far, the reader and the builder. -/
inductive Steps (document : String) : List Event → Reader → Builder → Prop
  /-- The start of the document. -/
  | start : Steps document [] (Reader.ofChars document.toList) Builder.empty
  /-- The reader gives an event, and the builder takes it. -/
  | next {es : List Event} {r r' : Reader} {b b' : Builder} {e : Event}
    (before : Steps document es r b) (hnext : r.next = .ok (some (e, r')))
    (hpush : b.push e = .ok b') : Steps document (es ++ [e]) r' b'

/-- How the loop ends in a state. It does not if there is an event and it is taken. -/
def ending? (r : Reader) (b : Builder) : Option (Except ParseError Element) :=
  match r.next with
  | .error fault => some (.error (.markup fault))
  | .ok none => some b.finish
  | .ok (some (e, _)) =>
    match b.push e with
    | .error f => some (.error f)
    | .ok _ => none

/-- The root element, given where the reader stands and what has been built. -/
def readFrom (r : Reader) (b : Builder) : Except ParseError Element := do
  let b ← r.events.items.foldlM Builder.push b
  match r.events.failure with
  | some fault => .error (.markup fault)
  | none => b.finish

section

variable {document : String} {es : List Event} {r r' : Reader} {b b' : Builder} {e : Event}
  {result : Except ParseError Element}

theorem readFrom_of_next (hnext : r.next = .ok (some (e, r'))) (hpush : b.push e = .ok b') :
    readFrom r b = readFrom r' b' := by
  have hitems : r.events.items.foldlM Builder.push b = r'.events.items.foldlM Builder.push b' := by
    rw [Reader.events_of_next hnext]
    exact foldlM_cons_of_ok hpush r'.events.items
  have hfailure : r.events.failure = r'.events.failure := by
    rw [Reader.events_of_next hnext]
    rfl
  rw [readFrom, readFrom, hitems, hfailure]

theorem readFrom_of_ending? (h : ending? r b = some result) : readFrom r b = result := by
  unfold ending? at h
  split at h
  next fault hnext =>
    rw [← Option.some.inj h, readFrom, Reader.events_of_next_error hnext]
    rfl
  next hnext =>
    rw [← Option.some.inj h, readFrom, Reader.events_of_next_none hnext]
    rfl
  next e r' hnext =>
    split at h
    next f hpush =>
      have hitems : r.events.items = e :: r'.events.items := by
        rw [Reader.events_of_next hnext]
        rfl
      rw [← Option.some.inj h, readFrom, hitems, List.foldlM_cons, hpush]
      rfl
    · simp at h

namespace Steps

theorem readRoot_eq (h : Steps document es r b) : readRoot document = readFrom r b := by
  induction h with
  | start => rfl
  | next before hnext hpush ih => rw [ih, readFrom_of_next hnext hpush]

theorem foldlM_push (h : Steps document es r b) :
    es.foldlM Builder.push Builder.empty = .ok b := by
  induction h with
  | start => rfl
  | next before hnext hpush ih => rw [foldlM_append_of_ok ih, foldlM_singleton_eq, hpush]

/-- The builder and the reader have the same elements open. -/
theorem openTags_eq (h : Steps document es r b) : b.openTags = r.openTags := by
  induction h with
  | start => exact (Reader.openTags_ofChars document.toList).symm
  | next before hnext hpush ih =>
    -- Both have gone on as the event says.
    have hbuilder := Builder.nest_of_push hpush
    have hreader := Reader.nest_of_next hnext
    rw [ih, hreader] at hbuilder
    exact (Option.some.inj hbuilder).symm

end Steps

/-- The loop ends, in a state that tells the root element or the error. -/
theorem exists_ending (document : String) :
    ∃ es r b, Steps document es r b ∧ ending? r b = some (readRoot document) := by
  have hends {es : List Event} {r : Reader} {b : Builder} (h : Steps document es r b) :
      ∃ es r b, Steps document es r b ∧ (ending? r b).isSome = true := by
    -- Each event takes something from what is left, so that the steps come to an end.
    induction r using Reader.events.induct generalizing es b with
    | case1 r fault hnext => exact ⟨es, r, b, h, by simp [ending?, hnext]⟩
    | case2 r hnext => exact ⟨es, r, b, h, by simp [ending?, hnext]⟩
    | case3 r e r' hnext ih =>
      cases hpush : b.push e with
      | error f => exact ⟨es, r, b, h, by simp [ending?, hnext, hpush]⟩
      | ok b' => exact ih (h.next hnext hpush)
  obtain ⟨es, r, b, h, hending⟩ := hends .start
  obtain ⟨result, hresult⟩ := Option.isSome_iff_exists.1 hending
  exact ⟨es, r, b, h, by rw [hresult, h.readRoot_eq, readFrom_of_ending? hresult]⟩

end

/-! ## Ends of elements that are not open -/

namespace Builder

variable {b b' : Builder} {e : Event} {f : ParseError}

/-- An end tag finds an element if one is open. -/
theorem push_ne_unbalancedEnd {names : List (List Char)} (h : e.nest b.openTags = some names) :
    b.push e ≠ .error .unbalancedEnd := by
  intro hpush
  cases e with
  | opened tag =>
    cases hattributes : readAttributes tag.attributes with
    | error f =>
      obtain ⟨cause, rfl⟩ := exists_of_readAttributes_error hattributes
      simp [push, hattributes, bind, Except.bind] at hpush
    | ok attributes => simp [push, hattributes, bind, Except.bind] at hpush
  | selfClosed tag =>
    cases hattributes : readAttributes tag.attributes with
    | error f =>
      obtain ⟨cause, rfl⟩ := exists_of_readAttributes_error hattributes
      simp [push, hattributes, bind, Except.bind] at hpush
    | ok attributes =>
      simp only [push, hattributes, bind, Except.bind] at hpush
      cases eq_of_attach_error hpush
  | closed =>
    rw [push] at hpush
    split at hpush
    next hstack => simp [Event.nest, openTags_eq_nil_iff.2 hstack] at h
    · cases eq_of_attach_error hpush
  | text raw =>
    rw [push] at hpush
    split at hpush
    · simp at hpush
    · cases eq_of_addText_error hpush
  | characterData content => cases eq_of_addText_error hpush
  | comment content => simp [push] at hpush
  | ignored => simp [push] at hpush

end Builder

/-- The reader gives no end tag that the builder has no element for. -/
theorem Steps.push_ne_unbalancedEnd {document : String} {es : List Event} {r r' : Reader}
    {b : Builder} {e : Event} (h : Steps document es r b) (hnext : r.next = .ok (some (e, r'))) :
    b.push e ≠ .error .unbalancedEnd := by
  have hnest : e.nest b.openTags = some r'.openTags := by
    rw [h.openTags_eq]
    exact Reader.nest_of_next hnext
  exact Builder.push_ne_unbalancedEnd hnest

theorem readRoot_ne_unbalancedEnd (document : String) :
    readRoot document ≠ .error .unbalancedEnd := by
  intro hroot
  -- The error would be that of the state in which the loop ends.
  obtain ⟨es, r, b, h, hending⟩ := exists_ending document
  rw [hroot] at hending
  unfold ending? at hending
  split at hending
  · simp at hending
  · unfold Builder.finish at hending
    split at hending <;> simp at hending
  next e r' hnext =>
    split at hending
    next f hpush =>
      obtain rfl : f = .unbalancedEnd := by simpa using hending
      exact h.push_ne_unbalancedEnd hnext hpush
    · simp at hending

end IntentFirewall.Xml
