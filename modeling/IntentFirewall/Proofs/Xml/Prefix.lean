import IntentFirewall.Proofs.Xml.Parsed
import IntentFirewall.Proofs.Xml.RoundTrip

/-!
# Documents that are cut off

What has been read of a document does not change if the document goes on, but for a text at its
end. So a document is not cut off before the end tag of its root element without being noticed:
if the part had a root element, the end tag would be one too many.

* `Reader.extend`: the same place in a document that goes on. `Reader.next_extend` says that the
  same event is read there.
* `Reader.exists_events_extend`: all events, but for a text at the end, are read there.
* `Builder.stack_ne_nil_of_push_closed`: nothing can be closed beside the root element.
* `exists_error_of_readRoot_append`: a document that is cut off has no root element.
-/

namespace IntentFirewall.Xml

/-- A list is split at the same place if it goes on. -/
theorem span_append {α : Type} {p : α → Bool} {as : List α} (h : as.dropWhile p ≠ [])
    (more : List α) :
    (as ++ more).takeWhile p = as.takeWhile p ∧
      (as ++ more).dropWhile p = as.dropWhile p ++ more := by
  have hlength : (as.takeWhile p).length ≠ as.length := by
    intro hlength
    have hall := congrArg List.length (List.takeWhile_append_dropWhile (p := p) (l := as))
    rw [List.length_append, hlength, Nat.add_eq_left] at hall
    exact h (List.length_eq_zero_iff.1 hall)
  rw [List.takeWhile_append, if_neg hlength, List.dropWhile_append,
    if_neg (by rwa [List.isEmpty_iff])]
  exact ⟨rfl, rfl⟩

namespace Reader

variable {r r' : Reader} {e : Event}

/-! ## Markup in a longer document -/

/-- The same place in a document that goes on. -/
def extend (r : Reader) (more : List Char) : Reader := { r with rest := r.rest ++ more }

/-- What is read as markup is read as the same markup if the document goes on. -/
def IsLocal (read : Reader → Except SyntaxFault (Event × Reader)) : Prop :=
  ∀ r e r', read r = .ok (e, r') → ∀ more, read (r.extend more) = .ok (e, r'.extend more)

theorem isLocal_enclosed {σ : Type} (ending : Ending σ) (unclosed : SyntaxError)
    {event : Reader → List Char → Except SyntaxFault (Event × Reader)}
    (hevent : ∀ content, IsLocal (event · content)) :
    IsLocal (enclosed · ending unclosed event) := by
  intro r e r' h more
  obtain ⟨content, rest, hrest, hencloses, hbehind⟩ := exists_of_enclosed h
  have hsplit : ending.split (r.extend more).rest = some (content, rest ++ more) := by
    rw [extend, hrest, List.append_assoc, List.cons_append, Ending.split_append hencloses]
  simp only [enclosed, hsplit]
  exact hevent content _ _ _ hbehind more

/-- Markup is local if its content alone tells its event, which leaves the reader where it is. -/
theorem isLocal_of_content {σ : Type} (ending : Ending σ) (unclosed : SyntaxError)
    {event : Reader → List Char → Except SyntaxFault (Event × Reader)}
    (hevent : ∀ q content e q', event q content = .ok (e, q') →
      q' = q ∧ ∀ p, event p content = .ok (e, p)) :
    IsLocal (enclosed · ending unclosed event) := by
  refine isLocal_enclosed _ _ fun content r e r' h more => ?_
  obtain ⟨rfl, hanywhere⟩ := hevent _ _ _ _ h
  exact hanywhere _

theorem isLocal_comment : IsLocal comment := by
  refine isLocal_of_content _ _ fun q content e q' h => ?_
  split at h <;> cases h
  exact ⟨rfl, fun _ => rfl⟩

theorem isLocal_characterData : IsLocal characterData := by
  refine isLocal_of_content _ _ fun q content e q' h => ?_
  split at h <;> cases h
  exact ⟨rfl, fun _ => rfl⟩

theorem isLocal_doctype : IsLocal doctype := by
  refine isLocal_of_content _ _ fun q content e q' h => ?_
  split at h
  · split at h <;> cases h
    next hblank => exact ⟨rfl, fun _ => if_neg hblank⟩
  · cases h

theorem isLocal_instruction : IsLocal instruction := by
  refine isLocal_of_content _ _ fun q content e q' h => ?_
  split at h <;> cases h
  next hlength => exact ⟨rfl, fun _ => if_neg hlength⟩

theorem isLocal_endTag : IsLocal endTag := by
  refine isLocal_enclosed _ _ fun content r e r' h more => ?_
  have htags : (r.extend more).openTags = r.openTags := rfl
  simp only [finish, htags] at h ⊢
  split at h
  · simp at h
  · split at h
    next hname =>
      obtain ⟨rfl, rfl⟩ := Prod.mk.inj (Except.ok.inj h)
      rw [if_pos hname]
      rfl
    · simp at h

theorem isLocal_startTag : IsLocal startTag := by
  refine isLocal_enclosed _ _ fun content r e r' h more => ?_
  simp only [start] at h ⊢
  split at h
  next hslash =>
    obtain ⟨rfl, rfl⟩ := Prod.mk.inj (Except.ok.inj h)
    rw [if_pos hslash]
  next hslash =>
    obtain ⟨rfl, rfl⟩ := Prod.mk.inj (Except.ok.inj h)
    rw [if_neg hslash]
    rfl

/-- Markup that is read has ended before the document goes on. -/
theorem isLocal_markup : IsLocal markup := by
  intro r e r' h more
  -- The first two characters tell what is read, and they are there.
  have hkind {read : Reader → Except SyntaxFault (Event × Reader)} (hread : IsLocal read)
      (h : read r = .ok (e, r')) (hmarkup : (r.extend more).markup = read (r.extend more)) :
      (r.extend more).markup = .ok (e, r'.extend more) :=
    hmarkup.trans (hread r e r' h more)
  unfold markup at h
  split at h
  next hrest => exact hkind isLocal_characterData h (by simp [markup, extend, hrest])
  next hrest => exact hkind isLocal_comment h (by simp [markup, extend, hrest])
  next hrest => exact hkind isLocal_doctype h (by simp [markup, extend, hrest])
  next hrest => exact hkind isLocal_doctype h (by simp [markup, extend, hrest])
  next => simp at h
  next hrest => exact hkind isLocal_instruction h (by simp [markup, extend, hrest])
  next hrest => exact hkind isLocal_endTag h (by simp [markup, extend, hrest])
  next hother hinstruction hend =>
    refine hkind isLocal_startTag h (markup_eq_startTag fun c hc => ?_)
    obtain ⟨content, rest, hrest, -, -⟩ := exists_of_enclosed h
    obtain ⟨d, cs, hcs⟩ := List.exists_cons_of_ne_nil (l := r.rest) (by simp [hrest])
    obtain rfl : d = c := by simpa [extend, hcs] using hc
    refine ⟨?_, ?_, ?_⟩ <;> rintro rfl
    · exact hother cs hcs
    · exact hinstruction cs hcs
    · exact hend cs hcs

/-! ## Events of a longer document -/

theorem skip_extend {r : Reader} (h : r.skip.rest ≠ []) (more : List Char) :
    (r.extend more).skip = r.skip.extend more := by
  obtain ⟨htake, hdrop⟩ := span_append h more
  simp only [skip, extend, skipSpace, htake, hdrop]

/-- What is read next is read if the document goes on, too, unless it is a text at the end. -/
theorem next_extend {r r' : Reader} {e : Event} (h : r.next = .ok (some (e, r')))
    (hend : r'.rest = [] → ∀ raw, e ≠ .text raw) (more : List Char) :
    (r.extend more).next = .ok (some (e, r'.extend more)) := by
  rw [next] at h
  split at h
  · simp at h
  next rest hrest =>
    have hskip := skip_extend (r := r) (by simp [hrest]) more
    cases hmarkup : markup { r.skip with rest := rest, consumed := r.skip.consumed + 1 } with
    | error f => simp [hmarkup, Except.map] at h
    | ok p =>
      rw [hmarkup] at h
      obtain rfl : p = (e, r') := by simpa [Except.map] using h
      have hlocal := isLocal_markup _ _ _ hmarkup more
      rw [next, hskip, extend, hrest]
      simp only [extend] at hlocal
      simp only [List.cons_append, hlocal]
      rfl
  next hnil hmarkup =>
    have hread : r.skip.text = (e, r') := Option.some.inj (Except.ok.inj h)
    obtain rfl : r.skip.text.1 = e := congrArg Prod.fst hread
    obtain rfl : r.skip.text.2 = r' := congrArg Prod.snd hread
    have hrest : r.skip.rest ≠ [] := hnil
    have hdrop : r.skip.rest.dropWhile (· != '<') ≠ [] := fun hdrop => hend hdrop _ rfl
    obtain ⟨htake, hdrop⟩ := span_append hdrop more
    have htext : (r.skip.extend more).text = (r.skip.text.1, r.skip.text.2.extend more) := by
      simp only [text, extend, htake, hdrop]
    obtain ⟨c, cs, hcs⟩ := List.exists_cons_of_ne_nil hrest
    have hc : c ≠ '<' := fun hc => hmarkup cs (hc ▸ hcs)
    rw [next, skip_extend hrest, htext]
    split
    next hnone => simp [extend, hcs] at hnone
    next rest hsome => exact absurd (by simpa [extend, hcs] using hsome) (not_and_of_not_left _ hc)
    next => rfl

/-- The events of a document are read if it goes on, too, but for a text at its end. -/
theorem exists_events_extend {r : Reader} (h : r.events.failure = none) :
    ∃ es q, (r.events.items = es ∨ ∃ raw, r.events.items = es ++ [.text raw]) ∧
      ∀ more, (r.extend more).events = (extend q more).events.prepend es := by
  fun_induction events r with
  | case1 r f hnext => simp at h
  | case2 r hnext => exact ⟨[], r, .inl rfl, fun _ => rfl⟩
  | case3 r e r' hnext ih =>
    by_cases hend : r'.rest = [] → ∀ raw, e ≠ .text raw
    · obtain ⟨es, q, hitems, hmore⟩ := ih h
      refine ⟨e :: es, q, ?_, fun more => ?_⟩
      · rcases hitems with hitems | ⟨raw, hitems⟩
        · exact .inl (by simp [hitems])
        · exact .inr ⟨raw, by simp [hitems]⟩
      · rw [events_of_next (next_extend hnext hend more), hmore more]
        rfl
    · -- A text at the end may be longer if the document goes on.
      obtain ⟨hrest, raw, rfl⟩ : r'.rest = [] ∧ ∃ raw, e = .text raw := by simpa using hend
      have hnone : r'.events = ⟨[], none⟩ :=
        events_of_next_none (by simp [next, skip, skipSpace, hrest])
      exact ⟨[], r, .inr ⟨raw, by simp [hnone]⟩, fun _ => rfl⟩

/-- Something is read where something other than white space is left. -/
theorem items_ne_nil {r : Reader} (h : r.events.failure = none) (hrest : skipSpace r.rest ≠ []) :
    r.events.items ≠ [] := by
  cases hnext : r.next with
  | error f => simp [events_of_next_error hnext] at h
  | ok found =>
    cases found with
    | none =>
      rw [next] at hnext
      split at hnext
      next hnil => exact absurd hnil hrest
      next rest hmarkup =>
        cases hm : markup { r.skip with rest := rest, consumed := r.skip.consumed + 1 } with
        | error f => simp [hm, Except.map] at hnext
        | ok p => simp [hm, Except.map] at hnext
      next => simp at hnext
    | some p =>
      rw [events_of_next hnext]
      simp [Scan.prepend]

/-- Where a document goes on, the last event comes from what it goes on with. -/
theorem getLast?_items_extend {r : Reader} {es : List Event} {more : List Char}
    (h : (r.extend more).events.failure = none) (hmore : skipSpace more ≠ []) :
    ((r.extend more).events.prepend es).items.getLast? =
      (r.extend more).events.items.getLast? := by
  have hrest : skipSpace (r.extend more).rest ≠ [] := by
    rw [extend, skipSpace, List.dropWhile_append]
    split
    · exact hmore
    next hr => exact List.append_ne_nil_of_left_ne_nil (mt List.isEmpty_iff.2 hr) _
  rw [Scan.prepend, List.getLast?_append_of_ne_nil _ (items_ne_nil h hrest)]

end Reader

namespace Builder

variable {b b' : Builder} {root : Element}

/-! ## The root element -/

theorem root_of_addNode {node : Content → Content} (h : b.addNode node = some b') :
    b'.root = b.root := by
  obtain ⟨e, outer, -, rfl⟩ := addNode_cases h
  rfl

theorem root_of_attach {e : Element} (hroot : b.root = some root) (h : b.attach e = .ok b') :
    b'.root = some root := by
  rcases attach_cases h with hnode | ⟨-, hnone, -⟩
  · rw [root_of_addNode hnode, hroot]
  · simp [hroot] at hnone

theorem root_of_addText {t : String} (h : b.addText t = .ok b') : b'.root = b.root := by
  rcases addText_cases h with hnode | ⟨-, rfl⟩
  · exact root_of_addNode hnode
  · rfl

/-- A root element that has been closed stays. -/
theorem root_of_push {e : Event} (hroot : b.root = some root) (h : b.push e = .ok b') :
    b'.root = some root := by
  cases e with
  | opened tag =>
    obtain ⟨attributes, -, rfl⟩ := push_opened_eq_ok_iff.1 h
    exact hroot
  | selfClosed tag =>
    obtain ⟨attributes, -, hattach⟩ := push_selfClosed_eq_ok_iff.1 h
    exact root_of_attach hroot hattach
  | closed =>
    obtain ⟨e, outer, -, hattach⟩ := push_closed_eq_ok_iff.1 h
    exact root_of_attach (b := ⟨outer, b.root⟩) hroot hattach
  | text raw =>
    obtain ⟨cs, -, htext⟩ := push_text_eq_ok_iff.1 h
    rw [root_of_addText htext, hroot]
  | characterData content => rw [root_of_addText h, hroot]
  | comment content =>
    rcases push_comment_cases h with hnode | rfl
    · rw [root_of_addNode hnode, hroot]
    · exact hroot
  | ignored =>
    obtain rfl := Except.ok.inj h
    exact hroot

theorem root_of_foldlM {es : List Event} (hroot : b.root = some root)
    (h : es.foldlM push b = .ok b') : b'.root = some root := by
  induction es generalizing b with
  | nil =>
    obtain rfl : b = b' := Except.ok.inj h
    exact hroot
  | cons e es ih =>
    obtain ⟨b₁, hpush, hrest⟩ := foldlM_cons_eq_ok_iff.1 h
    exact ih (root_of_push hroot hpush) hrest

/-- What is closed beside the root element lies in another element, which is still open. -/
theorem stack_ne_nil_of_push_closed (hroot : b.root = some root) (h : b.push .closed = .ok b') :
    b'.stack ≠ [] := by
  obtain ⟨e, outer, -, hattach⟩ := push_closed_eq_ok_iff.1 h
  rcases attach_cases hattach with hnode | ⟨-, hnone, -⟩
  · obtain ⟨f, rest, -, rfl⟩ := addNode_cases hnode
    simp
  · simp [hroot] at hnone

/-- A text opens and closes nothing. -/
theorem root_of_push_text {raw : List Char} (h : b.push (.text raw) = .ok b') :
    b'.root = b.root := by
  obtain ⟨cs, -, htext⟩ := push_text_eq_ok_iff.1 h
  exact root_of_addText htext

/-- Beside the root element, an end tag that comes last leaves an element open. -/
theorem stack_ne_nil_of_foldlM {es : List Event} (hroot : b.root = some root)
    (hlast : es.getLast? = some .closed) (h : es.foldlM push b = .ok b') : b'.stack ≠ [] := by
  obtain ⟨front, rfl⟩ := List.getLast?_eq_some_iff.1 hlast
  obtain ⟨b₁, hfront, hclosed⟩ := foldlM_concat_eq_ok_iff.1 h
  exact stack_ne_nil_of_push_closed (root_of_foldlM hroot hfront) hclosed

end Builder

/-! ## Documents that are cut off -/

/-- At the end of a document its root element has been closed. -/
theorem exists_of_readRoot {document : String} {root : Element}
    (h : readRoot document = .ok root) : (events document).failure = none ∧
      ∃ b, (events document).items.foldlM Builder.push .empty = .ok b ∧ b.stack = [] ∧
        b.root = some root := by
  rw [readRoot] at h
  cases hfold : (events document).items.foldlM Builder.push Builder.empty with
  | error f => simp [hfold, bind, Except.bind] at h
  | ok b =>
    simp only [hfold, bind, Except.bind] at h
    split at h
    · simp at h
    next hfailure =>
      refine ⟨hfailure, b, rfl, ?_⟩
      rw [Builder.finish] at h
      split at h
      · simp at h
      · simp at h
      next hstack hroot => exact ⟨hstack, by rw [hroot, Except.ok.inj h]⟩

/-- A document that goes on starts at the same place, unless there was nothing of it. -/
theorem ofChars_append {part : List Char} (h : part ≠ []) (more : List Char) :
    Reader.ofChars (part ++ more) = (Reader.ofChars part).extend more := by
  cases part with
  | nil => exact absurd rfl h
  | cons c cs =>
    rw [List.cons_append, Reader.ofChars, Reader.ofChars]
    split <;> rfl

theorem ne_nil_of_readRoot {part : List Char} {root : Element}
    (h : readRoot (String.ofList part) = .ok root) : part ≠ [] := by
  rintro rfl
  have hevents : events (String.ofList []) = ⟨[], none⟩ := Reader.events_of_next_none rfl
  obtain ⟨-, b, hfold, -, hroot⟩ := exists_of_readRoot h
  rw [hevents] at hfold
  obtain rfl : Builder.empty = b := Except.ok.inj hfold
  simp [Builder.empty] at hroot

/-- A document that ends with an end tag has no root element any more if it is cut off before
this tag, or in it. -/
theorem exists_error_of_readRoot_append {part more : List Char} {root : Element}
    (hwhole : readRoot (String.ofList (part ++ more)) = .ok root)
    (hlast : (events (String.ofList (part ++ more))).items.getLast? = some .closed)
    (hmore : skipSpace more ≠ []) : ∃ e, readRoot (String.ofList part) = .error e := by
  cases hpart : readRoot (String.ofList part) with
  | error e => exact ⟨e, rfl⟩
  | ok root' =>
    exfalso
    obtain ⟨hfailure, b, hfold, -, hroot⟩ := exists_of_readRoot hpart
    obtain ⟨hfailure', b', hfold', hstack', -⟩ := exists_of_readRoot hwhole
    rw [events, String.toList_ofList] at hfailure hfold
    rw [events, String.toList_ofList, ofChars_append (ne_nil_of_readRoot hpart)]
      at hlast hfailure' hfold'
    obtain ⟨es, q, hitems, hextend⟩ := Reader.exists_events_extend hfailure
    rw [hextend more] at hlast hfailure' hfold'
    obtain ⟨b₁, hes, hbehind⟩ := foldlM_append_eq_ok_iff.1 hfold'
    -- The root element of the part has been closed when the document goes on.
    have hroot₁ : b₁.root = some root' := by
      rcases hitems with hitems | ⟨raw, hitems⟩
      · rw [hitems, hes] at hfold
        rw [Except.ok.inj hfold, hroot]
      · rw [hitems] at hfold
        obtain ⟨b₂, hes₂, htext⟩ := foldlM_concat_eq_ok_iff.1 hfold
        obtain rfl := Except.ok.inj (hes.symm.trans hes₂)
        rw [← Builder.root_of_push_text htext, hroot]
    -- Something is left of it, so that the end tag comes then.
    rw [Reader.getLast?_items_extend hfailure' hmore] at hlast
    exact Builder.stack_ne_nil_of_foldlM hroot₁ hlast hbehind hstack'

end IntentFirewall.Xml
