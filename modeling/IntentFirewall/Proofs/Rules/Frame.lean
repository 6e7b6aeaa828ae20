import IntentFirewall.Proofs.Rules.Removal

/-!
# What blocking leaves alone

Blocking a component takes out its filters, wherever they stand, and puts one filter into one
element. Everything else in the document stays as it was. Both halves are described without the
recursions that perform them: the first one by the nodes that are left, the second one by the place
at which the content is cut open. Either description fits one document only.

## Main definitions

* `Xml.Attributes.Assigns`: attributes of which one has got a value.
* `Xml.Content.Gains`: a content that has got a filter in a blocking element of a tag.
* `Document.Loses`, `Document.Gains`: the two halves of blocking.

## Main results

* `Document.loses_iff`, `Document.gains_iff`: the edits are what has been described.
* `Document.block_frame`: both halves, and what they mean for the state of components.
-/

namespace IntentFirewall

/-! ## Attributes -/

namespace Xml.Attributes

variable {key value : String} {as bs : Attributes}

/-- Some attributes are others of which the first one with a key has got a value. If there was none,
it has been added behind the others. -/
inductive Assigns (key value : String) : Attributes → Attributes → Prop
  /-- The key was there. -/
  | changed (front behind : Attributes) (old : String) (h : ∀ a ∈ front, a.1 ≠ key) :
    Assigns key value (front ++ (key, old) :: behind) (front ++ (key, value) :: behind)
  /-- It was not. -/
  | added (as : Attributes) (h : ∀ a ∈ as, a.1 ≠ key) : Assigns key value as (as ++ [(key, value)])

theorem Assigns.cons (h : Assigns key value as bs) {a : String × String} (ha : a.1 ≠ key) :
    Assigns key value (a :: as) (a :: bs) := by
  cases h with
  | changed front behind old hfront =>
    exact .changed (a :: front) behind old (List.forall_mem_cons.2 ⟨ha, hfront⟩)
  | added _ has => exact .added (a :: as) (List.forall_mem_cons.2 ⟨ha, has⟩)

theorem set_append (front behind : Attributes) (h : ∀ a ∈ front, a.1 ≠ key) :
    set (front ++ behind) key value = front ++ set behind key value := by
  induction front with
  | nil => rfl
  | cons a rest ih =>
    obtain ⟨ha, hrest⟩ := List.forall_mem_cons.1 h
    rw [List.cons_append, set, if_neg ha, ih hrest, List.cons_append]

theorem assigns_iff : Assigns key value as bs ↔ bs = as.set key value := by
  constructor
  · intro h
    cases h with
    | changed front behind old hfront =>
      rw [set_append front _ hfront, set, if_pos rfl]
    | added _ has =>
      have hset : set (as ++ []) key value = as ++ set [] key value := set_append as [] has
      rw [List.append_nil] at hset
      exact hset.symm
  · rintro rfl
    induction as with
    | nil => exact .added [] (fun _ h => absurd h List.not_mem_nil)
    | cons a rest ih =>
      rw [set]
      split
      next heq =>
        -- The key is found, with whatever value it had.
        obtain ⟨_, old⟩ := a
        obtain rfl : _ = key := heq
        exact .changed [] rest old (fun _ h => absurd h List.not_mem_nil)
      next hne => exact ih.cons hne

end Xml.Attributes

/-! ## Contents -/

namespace Xml.Content

open Element

variable {tag : RuleTag} {filter : String} {c d : Content}

/-- No element directly in a content blocks what a tag is about. -/
def HasNoTarget (tag : RuleTag) (c : Content) : Prop :=
  ∀ e ∈ c.elements, ¬(e.isRule tag = true ∧ e.isBlocking = true)

/-- A content is another one that has got a filter. It stands at the end of the first element that
blocks what a tag is about, and that element does not log any more. If there was no such element, a
new one has been added behind everything else. -/
inductive Gains (tag : RuleTag) (filter : String) : Content → Content → Prop
  /-- The element was there. -/
  | under (front children rest : Content) (name : String) (attributes attributes' : Attributes)
    (hfront : HasNoTarget tag front) (hrule : isRule ⟨name, attributes, children⟩ tag = true)
    (hblocks : isBlocking ⟨name, attributes, children⟩ = true)
    (hlog : attributes.Assigns logKey "false" attributes') :
    Gains tag filter (front.append (.element name attributes children rest))
      (front.append (.element name attributes' (children.append (ofFilter filter)) rest))
  /-- It was not. -/
  | new (c : Content) (h : HasNoTarget tag c) :
    Gains tag filter c (c.append
      (.element tag.name [(blockKey, "true"), (logKey, "false")] (ofFilter filter) nil))

theorem isTarget_iff {name : String} {attributes : Attributes} (children : Content) :
    isTarget tag name attributes = true ↔
      isRule ⟨name, attributes, children⟩ tag = true ∧
        isBlocking ⟨name, attributes, children⟩ = true :=
  Bool.and_eq_true_iff

theorem hasNoTarget_nil (tag : RuleTag) : HasNoTarget tag nil :=
  fun _ h => absurd h List.not_mem_nil

theorem hasNoTarget_element_iff {name : String} {attributes : Attributes}
    {children rest : Content} : HasNoTarget tag (.element name attributes children rest) ↔
      ¬isTarget tag name attributes = true ∧ HasNoTarget tag rest := by
  rw [isTarget_iff children]
  exact List.forall_mem_cons

/-- Elements that are no blocking ones of the tag are passed over. -/
theorem addUnder_append {front : Content} (h : HasNoTarget tag front) (added c : Content) :
    addUnder tag added (front.append c) = front.append (addUnder tag added c) := by
  induction front with
  | nil => rfl
  | element name attributes children rest ihChildren ihRest =>
    obtain ⟨hself, hrest⟩ := hasNoTarget_element_iff.1 h
    rw [append, addUnder_of_not_isTarget hself, ihRest hrest, append]
  | text t rest ih => rw [append, addUnder, ih h, append]
  | comment t rest ih => rw [append, addUnder, ih h, append]

/-- Without a blocking element of the tag, a new one is added behind everything else. -/
theorem addUnder_of_hasNoTarget (h : HasNoTarget tag c) (added : Content) :
    addUnder tag added c = c.append
      (.element tag.name [(blockKey, "true"), (logKey, "false")] added nil) := by
  have hadd := addUnder_append h added nil
  rw [append_nil] at hadd
  exact hadd

/-- A content can be cut open at its first blocking element of a tag, if it has one. -/
theorem exists_target_or_hasNoTarget (tag : RuleTag) (c : Content) :
    HasNoTarget tag c ∨
      ∃ front name attributes children rest, HasNoTarget tag front ∧
        isTarget tag name attributes = true ∧
        c = front.append (.element name attributes children rest) := by
  induction c with
  | nil => exact .inl (hasNoTarget_nil tag)
  | element name attributes children rest ihChildren ihRest =>
    by_cases htarget : isTarget tag name attributes = true
    · exact .inr ⟨nil, name, attributes, children, rest, hasNoTarget_nil tag, htarget, rfl⟩
    · -- The element is one of those in front of the place that is found behind it.
      rcases ihRest with hrest | ⟨front, n, as, cs, behind, hfront, hfirst, rfl⟩
      · exact .inl (hasNoTarget_element_iff.2 ⟨htarget, hrest⟩)
      · exact .inr ⟨.element name attributes children front, n, as, cs, behind,
          hasNoTarget_element_iff.2 ⟨htarget, hfront⟩, hfirst, rfl⟩
  | text t rest ih =>
    rcases ih with hrest | ⟨front, n, as, cs, behind, hfront, hfirst, rfl⟩
    · exact .inl hrest
    · exact .inr ⟨.text t front, n, as, cs, behind, hfront, hfirst, rfl⟩
  | comment t rest ih =>
    rcases ih with hrest | ⟨front, n, as, cs, behind, hfront, hfirst, rfl⟩
    · exact .inl hrest
    · exact .inr ⟨.comment t front, n, as, cs, behind, hfront, hfirst, rfl⟩

/-- Adding a filter makes the one content that has got it. -/
theorem gains_iff : Gains tag filter c d ↔ d = c.addBlockFilter tag filter := by
  rw [addBlockFilter_eq_addUnder]
  constructor
  · intro h
    cases h with
    | under front children rest name attributes attributes' hfront hrule hblocks hlog =>
      have htarget := (isTarget_iff children).2 ⟨hrule, hblocks⟩
      rw [addUnder_append hfront, addUnder_of_isTarget htarget, Attributes.assigns_iff.1 hlog]
    | new _ h => exact (addUnder_of_hasNoTarget h _).symm
  · rintro rfl
    rcases exists_target_or_hasNoTarget tag c with
      h | ⟨front, name, attributes, children, rest, hfront, htarget, rfl⟩
    · rw [addUnder_of_hasNoTarget h]
      exact .new c h
    · obtain ⟨hrule, hblocks⟩ := (isTarget_iff children).1 htarget
      rw [addUnder_append hfront, addUnder_of_isTarget htarget]
      exact .under front children rest name attributes _ hfront hrule hblocks
        (Attributes.assigns_iff.2 rfl)

theorem filterCount_append (c d : Content) (filter : String) :
    (c.append d).filterCount filter = c.filterCount filter + d.filterCount filter := by
  induction c with
  | nil => exact (Nat.zero_add _).symm
  | element name attributes children rest ihChildren ihRest =>
    simp only [append, filterCount, ihRest, Nat.add_assoc]
  | text t rest ih => exact ih
  | comment t rest ih => exact ih

/-- A content that has got a filter has one more of its name. -/
theorem Gains.filterCount_eq (h : Gains tag filter c d) :
    d.filterCount filter = c.filterCount filter + 1 := by
  have hfilter : (ofFilter filter).filterCount filter = 1 := by
    simp [ofFilter, filterCount, isFilter, attribute?, Attributes.get?]
  cases h with
  | under front children rest name attributes attributes' hfront hrule hblocks hlog =>
    -- The element in which the filter stands is a rule element and no filter.
    have hnot (bs : Attributes) (cs : Content) : ¬isFilter ⟨name, bs, cs⟩ filter = true :=
      not_isFilter_of_isTarget ((isTarget_iff children).2 ⟨hrule, hblocks⟩) bs filter
    simp only [filterCount_append, filterCount, if_neg (hnot _ _), hfilter]
    omega
  | new _ h =>
    have hnot : ¬isFilter ⟨tag.name, [(blockKey, "true"), (logKey, "false")], ofFilter filter⟩
        filter = true := not_isFilter_of_isTarget (isTarget_new tag) _ filter
    simp only [filterCount_append, filterCount, if_neg hnot, hfilter]

end Xml.Content

/-! ## States -/

namespace RuleSet

variable {tag other : RuleTag} {name m : String}

theorem isSome_state (tag : RuleTag) (name : String) (sets : List RuleSet) :
    (state tag name sets).isSome = sets.any (blocksName tag name) := by
  rw [state, Option.isSome_map, Bool.eq_iff_iff, List.find?_isSome, List.any_eq_true]

/-- Adding a name leaves other names blocked, or not blocked, as they were. -/
theorem isSome_state_addBlock (h : m ≠ name) (tag other : RuleTag) (sets : List RuleSet) :
    (state other m (addBlock tag name sets)).isSome = (state other m sets).isSome := by
  rw [isSome_state, isSome_state]
  induction sets with
  | nil => simp [addBlock, blocksName, h]
  | cons s rest ih =>
    rw [addBlock]
    split
    · rw [List.any_cons, List.any_cons, blocksName_withFilter h]
    · rw [List.any_cons, List.any_cons, ih]

end RuleSet

/-! ## Documents -/

namespace Document

variable {d d' : Document} {tag : RuleTag} {filter m : String}

/-- A document is another one that has lost the filters of a name with all that was in them. -/
structure Loses (filter : String) (d d' : Document) : Prop where
  /-- The root element has the same attributes. -/
  attributes : d'.attributes = d.attributes
  /-- Of its nodes, those are left which are in no filter of the name. -/
  occurrences : d'.content.occurrences = d.content.occurrences.filter (·.isSpared filter)

/-- A document is another one that has got a filter. -/
structure Gains (tag : RuleTag) (filter : String) (d d' : Document) : Prop where
  /-- The root element has the same attributes. -/
  attributes : d'.attributes = d.attributes
  /-- Its content has got the filter. -/
  content : Xml.Content.Gains tag filter d.content d'.content

theorem loses_iff : Loses filter d d' ↔ d' = d.withoutFilters filter := by
  constructor
  · intro h
    have hcontent : d'.content = d.content.withoutFilters filter :=
      Xml.Content.occurrences_injective
        (h.occurrences.trans (d.content.occurrences_withoutFilters filter).symm)
    calc d' = ⟨d'.attributes, d'.content⟩ := rfl
      _ = d.withoutFilters filter := by rw [h.attributes, hcontent]; rfl
  · rintro rfl
    exact ⟨rfl, d.content.occurrences_withoutFilters filter⟩

theorem gains_iff : Gains tag filter d d' ↔ d' = d.addBlockFilter tag filter := by
  constructor
  · intro h
    have hcontent := Xml.Content.gains_iff.1 h.content
    calc d' = ⟨d'.attributes, d'.content⟩ := rfl
      _ = d.addBlockFilter tag filter := by rw [h.attributes, hcontent]; rfl
  · rintro rfl
    exact ⟨rfl, Xml.Content.gains_iff.2 rfl⟩

/-- Blocking a component leaves other components blocked, or not blocked, as they were. -/
theorem isSome_blockingState_block (h : m ≠ filter) (d : Document) (tag other : RuleTag) :
    ((d.block tag filter).blockingState other m).isSome = (d.blockingState other m).isSome := by
  rw [blockingState_eq_state, blockingState_eq_state, ruleSets_block,
    RuleSet.isSome_state_addBlock h, RuleSet.state_map_without h]

/-- Taking out filters makes the one document that has lost them and nothing else, and leaves none
of them. Blocking a component makes the one document that then has got its filter, which is the only
one of its name. The component is blocked by its tag alone, without logging, and other components
are blocked, or not blocked, as they were. -/
theorem block_frame (d : Document) (tag : RuleTag) (filter : String) :
    (∀ d', Loses filter d d' ↔ d' = d.withoutFilters filter) ∧
      (d.withoutFilters filter).filterCount filter = 0 ∧
      (∀ d', Gains tag filter (d.withoutFilters filter) d' ↔ d' = d.block tag filter) ∧
      (d.block tag filter).filterCount filter = 1 ∧
      (∀ other, (d.block tag filter).blockingState other filter =
        if other = tag then some false else none) ∧
      ∀ other m, m ≠ filter →
        ((d.block tag filter).blockingState other m).isSome =
          (d.blockingState other m).isSome := by
  have hnone : (d.withoutFilters filter).filterCount filter = 0 :=
    d.content.filterCount_withoutFilters_self filter
  have hgains : Gains tag filter (d.withoutFilters filter) (d.block tag filter) :=
    gains_iff.2 rfl
  have hone : (d.block tag filter).filterCount filter = 1 :=
    hgains.content.filterCount_eq.trans (congrArg (· + 1) hnone)
  refine ⟨fun d' => loses_iff, hnone, fun d' => gains_iff, hone, ?_, ?_⟩
  · intro other
    exact d.blockingState_block_self tag other filter
  · intro other m hm
    exact isSome_blockingState_block hm d tag other

/-- A filter with a text in it is replaced under an element that logs. Another component, which
stands there as well, stays blocked, although that is not logged any more. -/
theorem block_frame_logging :
    let d : Document := ⟨[], .element "activity" [("block", "true"), ("log", "true")]
      (.element "component-filter" [("name", "p/A")] (.text "x" .nil) (.ofFilter "p/B")) .nil⟩
    "p/B" ≠ "p/A" ∧
      ((d.block .activity "p/A").blockingState .activity "p/B").isSome =
        (d.blockingState .activity "p/B").isSome ∧
      d.blockingState .activity "p/B" = some true ∧
      (d.block .activity "p/A").blockingState .activity "p/B" = some false ∧
      d.block .activity "p/A" = ⟨[], .element "activity" [("block", "true"), ("log", "false")]
        ((Xml.Content.ofFilter "p/B").append (.ofFilter "p/A")) .nil⟩ := by
  intro d
  have hne : "p/B" ≠ "p/A" := by decide
  obtain ⟨-, -, -, -, -, hothers⟩ := d.block_frame .activity "p/A"
  exact ⟨hne, hothers .activity "p/B" hne, by decide +kernel, by decide +kernel, by decide +kernel⟩

end Document
end IntentFirewall
