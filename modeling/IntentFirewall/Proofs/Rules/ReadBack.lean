import IntentFirewall.Proofs.LastValue
import IntentFirewall.Proofs.Rules.RoundTrip
import IntentFirewall.Proofs.Rules.RuleSets
import IntentFirewall.Rules.RuleStore

/-!
# What is read back after blocking

Whether a component is blocked is told by the rule sets of a document alone, and these are the
same in its normal form. So it is enough to follow the rule sets through a run of blocking edits,
where the last edit of a name decides: it is blocked by the tag of that edit, without logging, and
by no other tag.

* `RuleSet.state`, `Document.blockingState_eq_state`: the state of a component by the rule sets.
* `Document.ruleSets_normal`: the normal form has the same rule sets.
* `Document.blockingState_block_eq_iff`: when blocking a component changes the state of another one.
* `RuleStore.blockingState_blockAll`: the state after a run of blocking edits.
-/

namespace IntentFirewall

/-! ## States by rule sets -/

namespace RuleSet

/-- Whether a rule set blocks a component by a tag. -/
def blocksName (tag : RuleTag) (name : String) (s : RuleSet) : Bool :=
  s.blocks tag && s.filters.contains name

/-- Whether the first rule set that blocks a component by a tag logs; nothing if none does. -/
def state (tag : RuleTag) (name : String) (sets : List RuleSet) : Option Bool :=
  (sets.find? (blocksName tag name)).map (·.log)

variable {tag other : RuleTag} {name m : String} {s : RuleSet} {sets : List RuleSet}

theorem state_cons (tag : RuleTag) (name : String) (s : RuleSet) (sets : List RuleSet) :
    state tag name (s :: sets) =
      if s.blocksName tag name then some s.log else state tag name sets := by
  rw [state, List.find?_cons]
  cases s.blocksName tag name <;> rfl

theorem blocksName_eq_false (h : name ∉ s.filters) (tag : RuleTag) :
    s.blocksName tag name = false := by
  simp [blocksName, h]

/-- Which names a rule set blocks by a tag depends only on what the tag is about and on the names
in it. -/
theorem blocksName_congr {s s' : RuleSet} (hblocks : s'.blocks tag = s.blocks tag)
    (hmem : name ∈ s'.filters ↔ name ∈ s.filters) :
    s'.blocksName tag name = s.blocksName tag name := by
  have hcontains : s'.filters.contains name = s.filters.contains name := by
    rw [Bool.eq_iff_iff, List.contains_iff_mem, List.contains_iff_mem, hmem]
  rw [blocksName, blocksName, hblocks, hcontains]

theorem blocksName_without (h : m ≠ name) (tag : RuleTag) (s : RuleSet) :
    (s.without name).blocksName tag m = s.blocksName tag m :=
  blocksName_congr rfl (by simp [without, h])

theorem blocksName_withFilter (h : m ≠ name) (tag : RuleTag) (s : RuleSet) :
    (s.withFilter name).blocksName tag m = s.blocksName tag m :=
  blocksName_congr rfl (by simp [withFilter, h])

/-- A rule set that blocks what a tag is about blocks a name that it gets by that tag alone. -/
theorem blocksName_withFilter_self (h : s.blocks tag = true) (other : RuleTag) :
    (s.withFilter name).blocksName other name = decide (other = tag) := by
  have htag : s.tag = tag ∧ s.block = true := by simpa [blocks] using h
  rw [Bool.eq_iff_iff]
  simpa [blocksName, blocks, withFilter, htag] using eq_comm

/-- A name that is in no rule set has no state. -/
theorem state_eq_none (h : ∀ s ∈ sets, name ∉ s.filters) (tag : RuleTag) :
    state tag name sets = none := by
  induction sets with
  | nil => rfl
  | cons s rest ih =>
    obtain ⟨hs, hrest⟩ := List.forall_mem_cons.1 h
    rw [state_cons, blocksName_eq_false hs, if_neg Bool.false_ne_true, ih hrest]

/-- Taking out another name does not change the state of a name. -/
theorem state_map_without (h : m ≠ name) (tag : RuleTag) (sets : List RuleSet) :
    state tag m (sets.map (without name)) = state tag m sets := by
  induction sets with
  | nil => rfl
  | cons s rest ih =>
    rw [List.map_cons, state_cons, state_cons, ih, blocksName_without h]
    rfl

/-- A name that is added to a rule set is blocked by the tag of that set alone. -/
theorem state_addBlock_self (h : ∀ s ∈ sets, name ∉ s.filters) (tag other : RuleTag) :
    state other name (addBlock tag name sets) = if other = tag then some false else none := by
  induction sets with
  | nil =>
    -- A new rule set is an empty one that gets the name.
    have hempty : (RuleSet.mk tag true false []).blocks tag = true := by simp [blocks]
    have hnew : RuleSet.mk tag true false [name] = withFilter name ⟨tag, true, false, []⟩ := rfl
    rw [addBlock, hnew, state_cons, blocksName_withFilter_self hempty]
    simp only [decide_eq_true_eq]
    rfl
  | cons s rest ih =>
    obtain ⟨hs, hrest⟩ := List.forall_mem_cons.1 h
    rw [addBlock]
    split
    next hblocks =>
      rw [state_cons, blocksName_withFilter_self hblocks, state_eq_none hrest]
      simp only [decide_eq_true_eq]
      rfl
    next => rw [state_cons, blocksName_eq_false hs, if_neg Bool.false_ne_true, ih hrest]

/-- Adding a name stops the first blocking rule set of the tag from logging. That is all that other
names can see of it. -/
theorem state_addBlock_eq_iff (h : m ≠ name) (tag other : RuleTag) (sets : List RuleSet) :
    state other m (addBlock tag name sets) = state other m sets ↔
      (other = tag → state other m sets = some true →
        ∀ s, sets.find? (blocks tag) = some s → m ∉ s.filters) := by
  induction sets with
  | nil => simp [addBlock, state_cons, blocksName, h]
  | cons s rest ih =>
    rw [addBlock, state_cons, List.find?_cons]
    cases hblocks : s.blocks tag with
    | true =>
      have hfirst : s.blocksName other m = true ↔ other = tag ∧ m ∈ s.filters := by
        rw [blocks_iff] at hblocks
        rw [blocksName, Bool.and_eq_true, blocks_iff, hblocks, Prod.mk.injEq]
        simp [eq_comm]
      simp only [if_true, Option.some.injEq, forall_eq']
      rw [state_cons, blocksName_withFilter h]
      split
      next hs =>
        -- The rule set decides, and it no longer logs.
        rw [hfirst] at hs
        have hlog : (s.withFilter name).log = false := rfl
        rw [hlog]
        cases s.log <;> simp [hs]
      next hs =>
        rw [hfirst, not_and] at hs
        simpa using fun hother _ => hs hother
    | false =>
      simp only [Bool.false_eq_true, if_false]
      rw [state_cons]
      split
      next hs =>
        have hne : other ≠ tag := by
          rintro rfl
          simp [blocksName, hblocks] at hs
        simp [hne]
      next => exact ih

end RuleSet

/-! ## Documents in normal form -/

namespace Xml

namespace Content

theorem elements_consText (t : String) (c : Content) : (consText t c).elements = c.elements := by
  cases c <;> rfl

theorem elements_mergeTexts (c : Content) :
    c.mergeTexts.elements =
      c.elements.map fun e => { e with children := e.children.mergeTexts } := by
  induction c with
  | nil => rfl
  | element name attributes children rest ihChildren ihRest =>
    rw [mergeTexts, elements, elements, ihRest, List.map_cons]
  | text t rest ih => rw [mergeTexts, elements_consText, ih, elements]
  | comment t rest ih => exact ih

theorem elements_stripTexts (c : Content) :
    c.stripTexts.elements =
      c.elements.map fun e => { e with children := e.children.stripTexts } := by
  induction c with
  | nil => rfl
  | element name attributes children rest ihChildren ihRest =>
    rw [stripTexts, elements, elements, ihRest, List.map_cons]
  | text t rest ih =>
    rw [stripTexts]
    split <;> exact ih
  | comment t rest ih => exact ih

/-- The normal form has the same elements, with their contents in normal form. -/
theorem elements_normal (c : Content) :
    c.normal.elements = c.elements.map fun e => { e with children := e.children.normal } := by
  rw [normal, elements_stripTexts, elements_mergeTexts, List.map_map]
  rfl

end Content

theorem Element.filterNames_normal (name : String) (as : Attributes) (c : Content) :
    filterNames ⟨name, as, c.normal⟩ = filterNames ⟨name, as, c⟩ := by
  rw [filterNames, filterNames, childElements, childElements, Content.elements_normal,
    List.filter_map, List.filterMap_map]
  rfl

theorem Element.ofElement?_normal (name : String) (as : Attributes) (c : Content) :
    RuleSet.ofElement? ⟨name, as, c.normal⟩ = RuleSet.ofElement? ⟨name, as, c⟩ := by
  rw [RuleSet.ofElement?, filterNames_normal]
  rfl

end Xml

namespace Document

/-- The normal form of a document has the same rule sets. -/
theorem ruleSets_normal (d : Document) : d.normal.ruleSets = d.ruleSets := by
  have hsame : RuleSet.ofElement? ∘
      (fun e : Xml.Element => { e with children := e.children.normal }) = RuleSet.ofElement? := by
    ext1 e
    exact Xml.Element.ofElement?_normal e.name e.attributes e.children
  rw [ruleSets, normal, Xml.Content.elements_normal, List.filterMap_map, hsame, ruleSets]

/-! ## States in documents -/

/-- Whether a component is blocked is told by the rule sets of a document. -/
theorem blockingState_eq_state (d : Document) (tag : RuleTag) (filter : String) :
    d.blockingState tag filter = RuleSet.state tag filter d.ruleSets := by
  rw [blockingState, ruleSets]
  induction d.content.elements with
  | nil => rfl
  | cons e rest ih =>
    have hblocks := Xml.Element.any_blocks_ofElement? e tag
    rw [List.find?_cons, List.filterMap_cons]
    cases hset : RuleSet.ofElement? e with
    | none =>
      -- What is no rule element blocks nothing.
      rw [hset, Option.any_none] at hblocks
      rw [← hblocks, Bool.false_and]
      exact ih
    | some s =>
      have hset' := hset
      obtain ⟨u, -, rfl⟩ := Option.map_eq_some_iff.1 hset'
      have hnames : (NameSet.ofList e.filterNames).contains filter =
          e.filterNames.contains filter := by
        rw [Bool.eq_iff_iff]
        simp
      rw [hset, Option.any_some] at hblocks
      rw [RuleSet.state_cons, RuleSet.blocksName, hblocks, hnames, ← ih]
      cases e.isRule tag && e.isBlocking && e.filterNames.contains filter <;> rfl

theorem blockingState_normal (d : Document) (tag : RuleTag) (filter : String) :
    d.normal.blockingState tag filter = d.blockingState tag filter := by
  rw [blockingState_eq_state, blockingState_eq_state, ruleSets_normal]

/-- A component that has just been blocked is blocked by its tag alone, without logging. -/
theorem blockingState_block_self (d : Document) (tag other : RuleTag) (filter : String) :
    (d.block tag filter).blockingState other filter = if other = tag then some false else none := by
  rw [blockingState_eq_state, ruleSets_block]
  refine RuleSet.state_addBlock_self (fun s hs => ?_) tag other
  obtain ⟨s, -, rfl⟩ := List.mem_map.1 hs
  simp [RuleSet.without]

/-- Blocking a component changes the state of another one exactly if both have one tag, the rule of
the other one logs, and it stands in the element that the filter is put into. -/
theorem blockingState_block_eq_iff {filter m : String} (h : m ≠ filter) (d : Document)
    (tag other : RuleTag) :
    (d.block tag filter).blockingState other m = d.blockingState other m ↔
      (other = tag → d.blockingState other m = some true →
        ∀ s, d.ruleSets.find? (RuleSet.blocks tag) = some s → m ∉ s.filters) := by
  have hblocks : RuleSet.blocks tag ∘ RuleSet.without filter = RuleSet.blocks tag := rfl
  have hfilters (s : RuleSet) : m ∈ (s.without filter).filters ↔ m ∈ s.filters := by
    simp [RuleSet.without, h]
  rw [blockingState_eq_state, blockingState_eq_state, ruleSets_block,
    ← RuleSet.state_map_without h other d.ruleSets, RuleSet.state_addBlock_eq_iff h,
    List.find?_map, hblocks]
  simp [hfilters]

/-- Blocking a component does not change the state of another one whose rule does not log. -/
theorem blockingState_block_of_ne {d : Document} {other : RuleTag} {filter m : String}
    (h : m ≠ filter) (hlog : d.blockingState other m ≠ some true) (tag : RuleTag) :
    (d.block tag filter).blockingState other m = d.blockingState other m :=
  (blockingState_block_eq_iff h d tag other).2 fun _ hlogs => absurd hlogs hlog

/-- A component whose filters have been taken out has no state. -/
theorem blockingState_withoutFilters_self (d : Document) (tag : RuleTag) (filter : String) :
    (d.withoutFilters filter).blockingState tag filter = none := by
  rw [blockingState_eq_state, ruleSets_withoutFilters]
  refine RuleSet.state_eq_none (fun s hs => ?_) tag
  obtain ⟨s, -, rfl⟩ := List.mem_map.1 hs
  simp [RuleSet.without]

/-- Taking out filters does not change the state of another component. -/
theorem blockingState_withoutFilters_of_ne {filter m : String} (h : m ≠ filter) (d : Document)
    (tag : RuleTag) : (d.withoutFilters filter).blockingState tag m = d.blockingState tag m := by
  rw [blockingState_eq_state, blockingState_eq_state, ruleSets_withoutFilters,
    RuleSet.state_map_without h]

end Document

/-! ## Runs of blocking edits -/

namespace RuleStore

/-- The document after a run of blocking edits. -/
def blocked (entries : List (RuleTag × String)) (d : Document) : Document :=
  entries.foldl (fun d e => d.block e.1 e.2) d

/-- No rule logs right after its component has been blocked. -/
theorem blockAll_eq (entries : List (RuleTag × String)) (d : Document) :
    blockAll entries d = (List.replicate entries.length false, blocked entries d) := by
  induction entries generalizing d with
  | nil => rfl
  | cons e rest ih =>
    obtain ⟨tag, filter⟩ := e
    simp only [blockAll, ih, Document.blockingState_block_self]
    rfl

/-- After a run of blocking edits a name is blocked by the tag of its last edit alone. -/
theorem blockingState_blocked {entries : List (RuleTag × String)} {filter : String} {last : RuleTag}
    (h : lastValue? filter (entries.map Prod.swap) = some last) (d : Document) (tag : RuleTag) :
    (blocked entries d).blockingState tag filter = if tag = last then some false else none := by
  -- The last edit comes first: it either decides, or leaves the state of the name as it was.
  induction entries using List.reverseRecOn with
  | nil => simp at h
  | append_singleton entries e ih =>
    rw [List.map_append, List.map_singleton, lastValue?_concat] at h
    rw [blocked, List.foldl_append, List.foldl_cons, List.foldl_nil, ← blocked]
    split at h
    next hfilter =>
      obtain rfl : e.1 = last := Option.some.inj h
      obtain rfl : e.2 = filter := hfilter
      exact Document.blockingState_block_self _ e.1 tag e.2
    next hfilter =>
      have hne : filter ≠ e.2 := fun heq => hfilter heq.symm
      have hlog : (blocked entries d).blockingState tag filter ≠ some true := by
        rw [ih h]
        split <;> simp
      rw [Document.blockingState_block_of_ne hne hlog, ih h]

end RuleStore
end IntentFirewall
