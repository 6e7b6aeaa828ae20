import IntentFirewall.Proofs.Rules.NameSet
import IntentFirewall.Rules.Document

/-!
# Edits as operations on rule sets

What the edits of a document do to its rule sets. Foreign elements, texts and comments, filters
in elements that are no rule elements, and the spellings of flags do not matter for that.

* `RuleSet.without`, `RuleSet.addBlock`: taking a name out of a rule set, and putting a name into
  the first blocking rule set of a tag.
* `Content.ruleSets_withoutFilters`, `Content.ruleSets_addBlockFilter`: the edits are these
  operations.
* `Document.Change`: an edit, and what a run of edits does.
* `Document.ruleSets_refinement`: each edit is its operation, and a run of edits keeps the rule
  sets in their places and adds at most one of each tag.
-/

namespace IntentFirewall

/-! ## Operations on rule sets -/

namespace RuleSet

/-- A rule set without a name. -/
def without (name : String) (s : RuleSet) : RuleSet :=
  { s with filters := s.filters.filter (· != name) }

/-- Whether a rule set blocks what a tag is about. -/
def blocks (tag : RuleTag) (s : RuleSet) : Bool := s.tag == tag && s.block

/-- A rule set with one more name, which no longer logs. -/
def withFilter (name : String) (s : RuleSet) : RuleSet :=
  { s with log := false, filters := NameSet.insert name s.filters }

/-- Puts a name into the first blocking rule set of a tag, or into a new one behind the others. -/
def addBlock (tag : RuleTag) (name : String) : List RuleSet → List RuleSet
  | [] => [⟨tag, true, false, [name]⟩]
  | s :: rest =>
    if s.blocks tag then s.withFilter name :: rest else s :: addBlock tag name rest

/-- The tag and the block flag of a rule set, which no edit changes. -/
def heading (s : RuleSet) : RuleTag × Bool := (s.tag, s.block)

theorem blocks_iff {tag : RuleTag} {s : RuleSet} :
    s.blocks tag = true ↔ s.heading = (tag, true) := by
  rw [blocks, heading, Bool.and_eq_true, beq_iff_eq, Prod.mk.injEq]

theorem heading_withFilter (name : String) (s : RuleSet) :
    (s.withFilter name).heading = s.heading := rfl

/-- A rule set is added only if there is no blocking one of its tag. -/
theorem map_heading_addBlock (tag : RuleTag) (name : String) (sets : List RuleSet) :
    (addBlock tag name sets).map heading =
      sets.map heading ++ if (tag, true) ∈ sets.map heading then [] else [(tag, true)] := by
  induction sets with
  | nil => rfl
  | cons s rest ih =>
    rw [addBlock]
    by_cases h : s.blocks tag = true
    · rw [if_pos h, List.map_cons, heading_withFilter, List.map_cons,
        if_pos (List.mem_cons.2 (.inl (blocks_iff.1 h).symm)), List.append_nil]
    · have hne : (tag, true) ≠ s.heading := fun heq => h (blocks_iff.2 heq.symm)
      rw [if_neg h, List.map_cons, ih, List.map_cons, List.cons_append]
      simp only [List.mem_cons, hne, false_or]

end RuleSet

/-! ## Attributes and elements -/

namespace Xml

theorem Attributes.get?_set_self (as : Attributes) (key value : String) :
    (as.set key value).get? key = some value := by
  induction as with
  | nil => simp [set, get?]
  | cons a rest ih =>
    rw [set]
    split
    · simp [get?]
    next h =>
      rw [get?, List.find?_cons_of_neg (by simpa using h)]
      exact ih

theorem Attributes.get?_set_of_ne {key other : String} (h : other ≠ key) (as : Attributes)
    (value : String) : (as.set key value).get? other = as.get? other := by
  induction as with
  | nil => simp [set, get?, h.symm]
  | cons a rest ih =>
    rw [set]
    split
    next heq => simp [get?, heq, h.symm]
    next =>
      rw [get?, get?, List.find?_cons, List.find?_cons]
      split
      · rfl
      · exact ih

namespace Element

/-- The names of the filters in an element, one node after the other. -/
theorem filterNames_element (name n : String) (as bs : Attributes) (children rest : Content) :
    filterNames ⟨name, as, .element n bs children rest⟩ =
      (if n = filterTag then (bs.get? nameKey).toList else []) ++ filterNames ⟨name, as, rest⟩ := by
  simp only [filterNames, childElements, Content.elements, List.filter_cons, beq_iff_eq]
  split
  · rw [List.filterMap_cons, attribute?]
    cases bs.get? nameKey <;> rfl
  · rfl

theorem filterNames_append (name : String) (as : Attributes) (c d : Content) :
    filterNames ⟨name, as, c.append d⟩ =
      filterNames ⟨name, as, c⟩ ++ filterNames ⟨name, as, d⟩ := by
  induction c with
  | nil => rfl
  | element n bs children rest ihChildren ihRest =>
    rw [Content.append, filterNames_element, filterNames_element, ihRest, List.append_assoc]
  | text t rest ih => exact ih
  | comment t rest ih => exact ih

/-- Filters that are taken out are not named any more, and all others still are. -/
theorem filterNames_withoutFilters (name : String) (as : Attributes) (c : Content)
    (filter : String) :
    filterNames ⟨name, as, c.withoutFilters filter⟩ =
      (filterNames ⟨name, as, c⟩).filter (· != filter) := by
  induction c with
  | nil => rfl
  | element n bs children rest ihChildren ihRest =>
    rw [Content.withoutFilters, filterNames_element, List.filter_append, ← ihRest]
    by_cases hn : n = filterTag
    · subst hn
      -- A filter element without a name is neither named nor taken out.
      cases hname : bs.get? nameKey with
      | none =>
        simp [isFilter, attribute?, hname, filterNames_element]
      | some m =>
        by_cases hm : m = filter <;> simp [isFilter, attribute?, hname, hm, filterNames_element]
    · simp [isFilter, hn, filterNames_element]
  | text t rest ih => exact ih
  | comment t rest ih => exact ih

/-- No rule element is a filter. -/
theorem ofElement?_of_isFilter {e : Element} {filter : String} (h : e.isFilter filter = true) :
    RuleSet.ofElement? e = none := by
  obtain ⟨hname, -⟩ : e.name = filterTag ∧ _ := by simpa [isFilter] using h
  rw [RuleSet.ofElement?, hname]
  rfl

theorem ofElement?_withoutFilters (name : String) (as : Attributes) (c : Content)
    (filter : String) :
    RuleSet.ofElement? ⟨name, as, c.withoutFilters filter⟩ =
      (RuleSet.ofElement? ⟨name, as, c⟩).map (RuleSet.without filter) := by
  simp only [RuleSet.ofElement?, filterNames_withoutFilters, NameSet.ofList_filter, Option.map_map]
  rfl

/-- A rule element blocks exactly if its rule set does. -/
theorem any_blocks_ofElement? (e : Element) (tag : RuleTag) :
    (RuleSet.ofElement? e).any (RuleSet.blocks tag) = (e.isRule tag && e.isBlocking) := by
  rw [RuleSet.ofElement?, Option.any_map, isRule]
  -- The name of an element is that of a tag exactly if the tag is found by it.
  cases htag : RuleTag.ofName? e.name with
  | none =>
    have hne : e.name ≠ tag.name := fun heq => by
      rw [RuleTag.ofName?_eq_some_iff.2 heq] at htag
      simp at htag
    simp [hne]
  | some u =>
    have hiff : e.name = tag.name ↔ u = tag := by
      rw [← RuleTag.ofName?_eq_some_iff, htag, Option.some.injEq]
    have hbeq : (e.name == tag.name) = (u == tag) := by rw [Bool.eq_iff_iff]; simpa using hiff
    rw [Option.any_some, RuleSet.blocks, hbeq]

/-- A rule element that gets one more filter and no longer logs. -/
theorem ofElement?_addFilter (name : String) (as : Attributes) (c : Content) (filter : String) :
    RuleSet.ofElement? ⟨name, as.set logKey "false", c.append (.ofFilter filter)⟩ =
      (RuleSet.ofElement? ⟨name, as, c⟩).map (RuleSet.withFilter filter) := by
  have hblock (children : Content) :
      isBlocking ⟨name, as.set logKey "false", children⟩ = isBlocking ⟨name, as, c⟩ := by
    rw [isBlocking, isBlocking, flag, flag, attribute?, attribute?,
      Attributes.get?_set_of_ne (by decide)]
  have hlog (children : Content) : isLogging ⟨name, as.set logKey "false", children⟩ = false := by
    rw [isLogging, flag, attribute?, Attributes.get?_set_self]
    rfl
  have hnames : filterNames ⟨name, as.set logKey "false", c.append (.ofFilter filter)⟩ =
      filterNames ⟨name, as, c⟩ ++ [filter] := filterNames_append name as c (.ofFilter filter)
  simp only [RuleSet.ofElement?, hblock, hlog, hnames, NameSet.ofList_concat, Option.map_map]
  rfl

end Element

/-! ## Contents -/

namespace Content

/-- What the rule elements directly in a content say. -/
def ruleSets (c : Content) : List RuleSet := c.elements.filterMap RuleSet.ofElement?

theorem ruleSets_element (name : String) (as : Attributes) (children rest : Content) :
    (element name as children rest).ruleSets =
      (RuleSet.ofElement? ⟨name, as, children⟩).toList ++ rest.ruleSets := by
  rw [ruleSets, elements, List.filterMap_cons]
  cases RuleSet.ofElement? ⟨name, as, children⟩ <;> rfl

/-- Taking out the filters of a name takes the name out of every rule set. -/
theorem ruleSets_withoutFilters (c : Content) (filter : String) :
    (c.withoutFilters filter).ruleSets = c.ruleSets.map (RuleSet.without filter) := by
  induction c with
  | nil => rfl
  | element name as children rest ihChildren ihRest =>
    rw [withoutFilters, ruleSets_element, List.map_append, ← ihRest]
    split
    next h =>
      rw [Element.ofElement?_of_isFilter h]
      rfl
    next =>
      rw [ruleSets_element, Element.ofElement?_withoutFilters]
      cases RuleSet.ofElement? ⟨name, as, children⟩ <;> rfl
  | text t rest ih => exact ih
  | comment t rest ih => exact ih

/-- Adding a filter under a blocking element adds its name to the rule set. -/
theorem ruleSets_addBlockFilter (c : Content) (tag : RuleTag) (filter : String) :
    (c.addBlockFilter tag filter).ruleSets = RuleSet.addBlock tag filter c.ruleSets := by
  induction c with
  | nil => cases tag <;> rfl
  | element name as children rest ihChildren ihRest =>
    have hblocks := Element.any_blocks_ofElement? ⟨name, as, children⟩ tag
    rw [addBlockFilter, ← hblocks, ruleSets_element]
    -- Foreign elements are passed over on both sides.
    cases hset : RuleSet.ofElement? ⟨name, as, children⟩ with
    | none => simpa [ruleSets_element, hset] using ihRest
    | some s =>
      rw [Option.any_some, Option.toList_some, List.singleton_append, RuleSet.addBlock]
      split
      · rw [ruleSets_element, Element.ofElement?_addFilter, hset]
        rfl
      · rw [ruleSets_element, hset, ihRest]
        rfl
  | text t rest ih => exact ih
  | comment t rest ih => exact ih

end Content
end Xml

/-! ## Documents -/

namespace Document

/-- An edit of a document. -/
inductive Change
  /-- Blocks a component. -/
  | block (tag : RuleTag) (filter : String)
  /-- Takes out the filters of a name. -/
  | removeFilters (filter : String)
  deriving DecidableEq, Repr

/-- The document after an edit. -/
def change (d : Document) : Change → Document
  | .block tag filter => d.block tag filter
  | .removeFilters filter => d.withoutFilters filter

theorem ruleSets_withoutFilters (d : Document) (filter : String) :
    (d.withoutFilters filter).ruleSets = d.ruleSets.map (RuleSet.without filter) :=
  d.content.ruleSets_withoutFilters filter

theorem ruleSets_block (d : Document) (tag : RuleTag) (filter : String) :
    (d.block tag filter).ruleSets =
      RuleSet.addBlock tag filter (d.ruleSets.map (RuleSet.without filter)) := by
  rw [← ruleSets_withoutFilters]
  exact (d.withoutFilters filter).content.ruleSets_addBlockFilter tag filter

/-- The tags and block flags of the rule sets of a document. -/
def headings (d : Document) : List (RuleTag × Bool) := d.ruleSets.map RuleSet.heading

/-- An edit keeps the headings of all rule sets, and may add one. -/
theorem headings_change (d : Document) (c : Change) :
    ∃ added : List RuleTag, (d.change c).headings = d.headings ++ added.map (·, true) ∧
      added.Nodup ∧ ∀ tag ∈ added, (tag, true) ∉ d.headings := by
  have hwithout (filter : String) :
      (d.ruleSets.map (RuleSet.without filter)).map RuleSet.heading = d.headings := by
    rw [List.map_map]
    rfl
  cases c with
  | removeFilters filter =>
    refine ⟨[], ?_, by simp, by simp⟩
    rw [change, headings, ruleSets_withoutFilters, hwithout, List.map_nil, List.append_nil]
  | block tag filter =>
    rw [change, headings, ruleSets_block, RuleSet.map_heading_addBlock, hwithout]
    -- Whether a rule set is added depends on the headings before the edit alone.
    by_cases h : (tag, true) ∈ d.headings
    · exact ⟨[], by rw [if_pos h]; rfl, by simp, by simp⟩
    · exact ⟨[tag], by rw [if_neg h]; rfl, by simp, by simpa using h⟩

/-- A run of edits keeps the headings of all rule sets, and adds at most one of each tag. -/
theorem headings_foldl_change (d : Document) (changes : List Change) :
    ∃ added : List RuleTag, (changes.foldl change d).headings = d.headings ++ added.map (·, true) ∧
      added.Nodup ∧ ∀ tag ∈ added, (tag, true) ∉ d.headings := by
  induction changes generalizing d with
  | nil => exact ⟨[], by simp, by simp, by simp⟩
  | cons c rest ih =>
    obtain ⟨first, hfirst, hnodup, hnew⟩ := d.headings_change c
    obtain ⟨later, hlater, hnodupLater, hnewLater⟩ := ih (d.change c)
    rw [hfirst] at hlater hnewLater
    -- What is added later is missing from the headings so far, and so from what was added first.
    have hdistinct : ∀ tag ∈ first, ∀ late ∈ later, tag ≠ late := by
      rintro tag htag _ hlate rfl
      exact hnewLater tag hlate (List.mem_append_right _ (List.mem_map_of_mem htag))
    refine ⟨first ++ later, ?_, List.nodup_append.2 ⟨hnodup, hnodupLater, hdistinct⟩, ?_⟩
    · rw [List.foldl_cons, hlater, List.append_assoc, ← List.map_append]
    · intro tag htag
      rcases List.mem_append.1 htag with htag | htag
      · exact hnew tag htag
      · exact fun hmem => hnewLater tag htag (List.mem_append_left _ hmem)

/-- On the rule sets of a document, taking out filters deletes their name everywhere, and blocking
a component inserts its name into the first blocking rule set of its tag or into a new one. Over
any run of edits no rule set disappears, moves or gets another tag or block flag, and at most one
of each tag is added, and none of a tag that had a blocking one. -/
theorem ruleSets_refinement (d : Document) :
    (∀ filter, (d.withoutFilters filter).ruleSets = d.ruleSets.map (RuleSet.without filter)) ∧
      (∀ tag filter, (d.block tag filter).ruleSets =
        RuleSet.addBlock tag filter (d.ruleSets.map (RuleSet.without filter))) ∧
      ∀ changes : List Change, ∃ added : List RuleTag,
        (changes.foldl change d).headings = d.headings ++ added.map (·, true) ∧
          added.Nodup ∧ ∀ tag ∈ added, (tag, true) ∉ d.headings :=
  ⟨d.ruleSets_withoutFilters, d.ruleSets_block, d.headings_foldl_change⟩

end Document
end IntentFirewall
