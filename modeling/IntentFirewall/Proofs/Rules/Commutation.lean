import IntentFirewall.Proofs.Rules.Idempotence

/-!
# Edits of two components

Edits that are about two filter names can be made in either order. If at most one of them puts a
filter in, the tree is the same. If both do, the trees can differ: two filters in one element, and
two elements that are new, stand in the order in which they were added. What such trees say is the
same, for each tag even in the same order.

## Main definitions

* `RuleSet.ofTag`: the rule sets of one tag.

## Main results

* `RuleSet.ofTag_addBlock_comm`: adding two names leaves the same rule sets of each tag.
* `Document.edits_comm`: removals and blocking edits of two names in either order.
-/

namespace IntentFirewall

/-- Two names are inserted in either order. -/
theorem NameSet.insert_comm (a b : String) (s : NameSet) :
    insert a (insert b s) = insert b (insert a s) := by
  -- The places of both names are told by the names of the set, with which they are compared.
  induction s with
  | nil => grind [NameSet.insert]
  | cons n rest ih => grind [NameSet.insert]

namespace RuleSet

variable {tag other : RuleTag}

/-- The rule sets of one tag, in their order. -/
def ofTag (tag : RuleTag) (sets : List RuleSet) : List RuleSet := sets.filter (·.tag == tag)

theorem ofTag_cons_of_eq {s : RuleSet} (h : s.tag = tag) (sets : List RuleSet) :
    ofTag tag (s :: sets) = s :: ofTag tag sets :=
  List.filter_cons_of_pos (beq_iff_eq.2 h)

theorem ofTag_cons_of_ne {s : RuleSet} (h : s.tag ≠ tag) (sets : List RuleSet) :
    ofTag tag (s :: sets) = ofTag tag sets :=
  List.filter_cons_of_neg (mt beq_iff_eq.1 h)

theorem tag_of_blocks {s : RuleSet} (h : s.blocks tag = true) : s.tag = tag :=
  congrArg Prod.fst (blocks_iff.1 h)

/-- A name is added to a rule set of its tag, whatever other rule sets there are. -/
theorem ofTag_addBlock_self (tag : RuleTag) (name : String) (sets : List RuleSet) :
    ofTag tag (addBlock tag name sets) = addBlock tag name (ofTag tag sets) := by
  induction sets with
  | nil => exact ofTag_cons_of_eq rfl []
  | cons s rest ih =>
    by_cases hblocks : s.blocks tag = true
    · have htag := tag_of_blocks hblocks
      rw [addBlock, if_pos hblocks, ofTag_cons_of_eq (s := s.withFilter name) htag,
        ofTag_cons_of_eq htag, addBlock, if_pos hblocks]
    · rw [addBlock, if_neg hblocks]
      by_cases htag : s.tag = tag
      · rw [ofTag_cons_of_eq htag, ofTag_cons_of_eq htag, addBlock, if_neg hblocks, ih]
      · rw [ofTag_cons_of_ne htag, ofTag_cons_of_ne htag, ih]

/-- The rule sets of other tags stay as they are. -/
theorem ofTag_addBlock_of_ne (h : tag ≠ other) (name : String) (sets : List RuleSet) :
    ofTag other (addBlock tag name sets) = ofTag other sets := by
  induction sets with
  | nil => exact ofTag_cons_of_ne h []
  | cons s rest ih =>
    by_cases hblocks : s.blocks tag = true
    · have htag : s.tag ≠ other := fun heq => h ((tag_of_blocks hblocks).symm.trans heq)
      rw [addBlock, if_pos hblocks, ofTag_cons_of_ne (s := s.withFilter name) htag,
        ofTag_cons_of_ne htag]
    · rw [addBlock, if_neg hblocks]
      by_cases htag : s.tag = other
      · rw [ofTag_cons_of_eq htag, ofTag_cons_of_eq htag, ih]
      · rw [ofTag_cons_of_ne htag, ofTag_cons_of_ne htag, ih]

/-- Two names are added to the rule sets of one tag in either order. -/
theorem addBlock_comm (tag : RuleTag) (a b : String) (sets : List RuleSet) :
    addBlock tag b (addBlock tag a sets) = addBlock tag a (addBlock tag b sets) := by
  have hwith (s : RuleSet) : (s.withFilter a).withFilter b = (s.withFilter b).withFilter a := by
    simp only [withFilter, NameSet.insert_comm a b]
  induction sets with
  | nil =>
    -- The rule set that the first name makes is the one that the second name is put into.
    have hnew (name : String) : (RuleSet.mk tag true false [name]).blocks tag = true := by
      simp [blocks]
    rw [addBlock, addBlock, addBlock, if_pos (hnew a), addBlock, if_pos (hnew b)]
    exact congrArg (· :: []) (hwith ⟨tag, true, false, []⟩)
  | cons s rest ih =>
    by_cases hblocks : s.blocks tag = true
    · have hstill (name : String) : (s.withFilter name).blocks tag = true := hblocks
      rw [addBlock, if_pos hblocks, addBlock, if_pos (hstill a), addBlock, if_pos hblocks,
        addBlock, if_pos (hstill b), hwith]
    · simp only [addBlock, if_neg hblocks, ih]

/-- Of each tag, the same rule sets are there in the same order, whichever of two names is added
first. -/
theorem ofTag_addBlock_comm (s t u : RuleTag) (a b : String) (sets : List RuleSet) :
    ofTag u (addBlock t b (addBlock s a sets)) = ofTag u (addBlock s a (addBlock t b sets)) := by
  by_cases hs : s = u
  · subst hs
    by_cases ht : t = s
    · subst ht
      rw [addBlock_comm]
    · rw [ofTag_addBlock_of_ne ht, ofTag_addBlock_self, ofTag_addBlock_self,
        ofTag_addBlock_of_ne ht]
  · rw [ofTag_addBlock_of_ne hs]
    by_cases ht : t = u
    · subst ht
      rw [ofTag_addBlock_self, ofTag_addBlock_of_ne hs, ofTag_addBlock_self]
    · rw [ofTag_addBlock_of_ne ht, ofTag_addBlock_of_ne hs, ofTag_addBlock_of_ne ht]

/-- What a tag blocks is told by the rule sets of the tag. -/
theorem state_ofTag (tag : RuleTag) (name : String) (sets : List RuleSet) :
    state tag name (ofTag tag sets) = state tag name sets := by
  rw [state, ofTag, List.find?_filter, state]
  congr 2
  -- A rule set that blocks by a tag has this tag.
  ext s
  by_cases htag : s.tag = tag <;> simp [blocksName, blocks, htag]

/-- Lists with the same rule sets of each tag have the same rule sets. -/
theorem perm_of_ofTag {sets sets' : List RuleSet} (h : ∀ tag, ofTag tag sets = ofTag tag sets') :
    sets.Perm sets' := by
  apply List.perm_iff_count.2
  intro s
  have hcount (l : List RuleSet) : (ofTag s.tag l).count s = l.count s :=
    List.count_filter (beq_self_eq_true s.tag)
  rw [← hcount sets, h s.tag, hcount sets']

end RuleSet

namespace Document

variable {a b : String}

theorem ruleSets_addBlockFilter (d : Document) (tag : RuleTag) (filter : String) :
    (d.addBlockFilter tag filter).ruleSets = RuleSet.addBlock tag filter d.ruleSets :=
  d.content.ruleSets_addBlockFilter tag filter

/-- Blocking a component does not touch the filters of another one. -/
theorem withoutFilters_block_of_ne (h : a ≠ b) (d : Document) (tag : RuleTag) :
    (d.block tag a).withoutFilters b = (d.withoutFilters b).block tag a := by
  have hcontent := Xml.Content.withoutFilters_block_of_ne (e := (tag, a)) h d.content
  simp only [Xml.Content.block, ← Xml.Content.addBlockFilter_eq_addUnder] at hcontent
  simp only [block, addBlockFilter, withoutFilters, hcontent]

/-- Blocking two components takes out the filters of both, and then puts in the two of them. -/
theorem ruleSets_block_block (h : a ≠ b) (d : Document) (s t : RuleTag) :
    ((d.block s a).block t b).ruleSets = RuleSet.addBlock t b
      (RuleSet.addBlock s a ((d.withoutFilters a).withoutFilters b).ruleSets) := by
  rw [block, withoutFilters_block_of_ne h, block, withoutFilters_comm d b a,
    ruleSets_addBlockFilter, ruleSets_addBlockFilter]

/-- Whichever of two components is blocked first, each tag has the same rule sets in the same
order. -/
theorem ofTag_ruleSets_block_comm (h : a ≠ b) (d : Document) (s t u : RuleTag) :
    RuleSet.ofTag u ((d.block s a).block t b).ruleSets =
      RuleSet.ofTag u ((d.block t b).block s a).ruleSets := by
  rw [ruleSets_block_block h, ruleSets_block_block h.symm, d.withoutFilters_comm b a,
    RuleSet.ofTag_addBlock_comm]

/-- Edits of two filter names can be made in either order. Two removals, and a removal and a
blocking edit, leave the same tree. Two blocking edits leave the same rule sets, and every component
in the same state. -/
theorem edits_comm (d : Document) (h : a ≠ b) (s t : RuleTag) :
    (d.withoutFilters a).withoutFilters b = (d.withoutFilters b).withoutFilters a ∧
      (d.block s a).withoutFilters b = (d.withoutFilters b).block s a ∧
      ((d.block s a).block t b).ruleSets.Perm ((d.block t b).block s a).ruleSets ∧
      ∀ u m, ((d.block s a).block t b).blockingState u m =
        ((d.block t b).block s a).blockingState u m := by
  have hsame := fun u => ofTag_ruleSets_block_comm h d s t u
  refine ⟨d.withoutFilters_comm a b, withoutFilters_block_of_ne h d s,
    RuleSet.perm_of_ofTag hsame, ?_⟩
  intro u m
  rw [blockingState_eq_state, blockingState_eq_state, ← RuleSet.state_ofTag, hsame,
    RuleSet.state_ofTag]

/-- Of two filters one stands in the other, and the rule elements that they are put into are new.
The two trees are not equal. -/
theorem edits_comm_nested :
    let d : Document := ⟨[], .element "activity" [("block", "false")]
      (.element "component-filter" [("name", "p/A")] (.ofFilter "p/B") .nil) .nil⟩
    "p/A" ≠ "p/B" ∧
      (d.block .activity "p/A").withoutFilters "p/B" =
        (d.withoutFilters "p/B").block .activity "p/A" ∧
      ((d.block .activity "p/A").block .service "p/B").ruleSets.Perm
        ((d.block .service "p/B").block .activity "p/A").ruleSets ∧
      (d.block .activity "p/A").block .service "p/B" ≠
        (d.block .service "p/B").block .activity "p/A" := by
  intro d
  have hne : "p/A" ≠ "p/B" := by decide
  obtain ⟨-, hremoved, hperm, -⟩ := d.edits_comm hne .activity .service
  exact ⟨hne, hremoved, hperm, by decide +kernel⟩

end Document
end IntentFirewall
