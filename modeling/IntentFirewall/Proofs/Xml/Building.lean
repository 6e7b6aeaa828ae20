import IntentFirewall.Xml.Builder

/-!
# Steps of a builder

What a builder does with an event that it takes, and which errors it refuses one with.

* `Builder.addNode_cases`, `Builder.attach_cases`, `Builder.addText_cases`: where a node goes.
* `Builder.push_opened_eq_ok_iff` and the like: what each kind of event does.
* `Builder.eq_of_attach_error` and the like: the errors.
-/

namespace IntentFirewall.Xml.Builder

variable {b b' : Builder}

/-! ## Events that are taken -/

/-- A node is added to the innermost open element. -/
theorem addNode_cases {node : Content → Content} (h : b.addNode node = some b') :
    ∃ e outer, b.stack = e :: outer ∧
      b' = { b with stack := { e with nodes := node e.nodes } :: outer } := by
  rw [addNode] at h
  split at h
  · simp at h
  next e outer hstack => exact ⟨e, outer, hstack, (Option.some.inj h).symm⟩

/-- A complete element is a node of the innermost open one, or the root element. -/
theorem attach_cases {e : Element} (h : b.attach e = .ok b') :
    b.addNode (.element e.name e.attributes e.children) = some b' ∨
      b.stack = [] ∧ b.root = none ∧ b' = { b with root := some e } := by
  rw [attach] at h
  split at h
  next hnode =>
    obtain rfl := Except.ok.inj h
    exact .inl hnode
  next hnode =>
    have hstack : b.stack = [] := by
      rw [addNode] at hnode
      split at hnode
      next hstack => exact hstack
      next => simp at hnode
    split at h
    next hroot => exact .inr ⟨hstack, hroot, (Except.ok.inj h).symm⟩
    next => simp at h

/-- A text is a node of the innermost open element, unless it is blank. -/
theorem addText_cases {t : String} (h : b.addText t = .ok b') :
    b.addNode (.text t) = some b' ∨ Text.isBlankText t = true ∧ b' = b := by
  rw [addText] at h
  split at h
  next hblank => exact .inr ⟨hblank, (Except.ok.inj h).symm⟩
  next =>
    split at h
    next hnode =>
      obtain rfl := Except.ok.inj h
      exact .inl hnode
    next => simp at h

theorem push_opened_eq_ok_iff {tag : Tag} : b.push (.opened tag) = .ok b' ↔
    ∃ attributes, readAttributes tag.attributes = .ok attributes ∧
      b' = { b with stack := ⟨String.ofList tag.name, attributes, .nil⟩ :: b.stack } := by
  cases hattributes : readAttributes tag.attributes <;>
    simp [push, hattributes, bind, Except.bind, eq_comm]

theorem push_selfClosed_eq_ok_iff {tag : Tag} : b.push (.selfClosed tag) = .ok b' ↔
    ∃ attributes, readAttributes tag.attributes = .ok attributes ∧
      b.attach ⟨String.ofList tag.name, attributes, .nil⟩ = .ok b' := by
  cases hattributes : readAttributes tag.attributes <;>
    simp [push, hattributes, bind, Except.bind]

theorem push_closed_eq_ok_iff : b.push .closed = .ok b' ↔
    ∃ e outer, b.stack = e :: outer ∧ attach { b with stack := outer }
      ⟨e.name, e.attributes, e.nodes.reverseAppend .nil⟩ = .ok b' := by
  rw [push]
  cases b.stack with
  | nil => simp
  | cons e outer =>
    constructor
    · intro h
      exact ⟨e, outer, rfl, h⟩
    · rintro ⟨_, _, ⟨⟩, h⟩
      exact h

theorem push_text_eq_ok_iff {raw : List Char} : b.push (.text raw) = .ok b' ↔
    ∃ cs, unescape raw = .ok cs ∧ b.addText (String.ofList cs) = .ok b' := by
  rw [push]
  cases unescape raw <;> simp

/-- A comment outside the root element is passed over. -/
theorem push_comment_cases {content : List Char} (h : b.push (.comment content) = .ok b') :
    b.addNode (.comment (String.ofList content)) = some b' ∨ b' = b := by
  obtain rfl := Except.ok.inj h
  cases hnode : b.addNode (.comment (String.ofList content)) with
  | none => exact .inr rfl
  | some b₁ => exact .inl rfl

/-! ## Events that are refused -/

variable {f : ParseError}

theorem exists_of_readAttributes_error {s : Scan AttributeError RawAttribute}
    (h : readAttributes s = .error f) : ∃ cause, f = .badAttribute cause := by
  unfold readAttributes at h
  split at h
  · exact ⟨_, (Except.error.inj h).symm⟩
  · split at h
    · exact ⟨_, (Except.error.inj h).symm⟩
    · simp at h

theorem eq_of_attach_error {element : Element} (h : b.attach element = .error f) :
    f = .secondRoot := by
  unfold attach at h
  split at h
  · simp at h
  · split at h
    · simp at h
    · exact (Except.error.inj h).symm

theorem eq_of_addText_error {t : String} (h : b.addText t = .error f) : f = .textOutside := by
  unfold addText at h
  split at h
  · simp at h
  · split at h
    · simp at h
    · exact (Except.error.inj h).symm

end IntentFirewall.Xml.Builder
