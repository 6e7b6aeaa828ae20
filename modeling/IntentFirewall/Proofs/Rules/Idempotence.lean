import IntentFirewall.Proofs.Rules.ReadBack

/-!
# Edits that are made twice

Edits of a rule document that are made a second time change nothing more.

* `Content.addUnder`: what blocking does to the first blocking element of a tag. How two of these
  come to pass each other is said by `addUnder_addUnder_self` and `addUnder_addUnder_of_ne`.
* `RuleStore.blocked_blocked`: a run of blocking edits, with names and tags that may repeat.
* `Document.foldl_withoutFilters_foldl`: a run of removals.
-/

namespace IntentFirewall
namespace Xml

theorem Attributes.set_set (as : Attributes) (key old new : String) :
    (as.set key old).set key new = as.set key new := by
  induction as with
  | nil => simp [Attributes.set]
  | cons a rest ih =>
    rw [Attributes.set]
    split
    next h => simp [Attributes.set, h]
    next h => rw [Attributes.set, if_neg h, ih, Attributes.set, if_neg h]

namespace Content

open Element

/-! ## Filters of two names -/

section

variable {name filter other : String} {attributes : Attributes}

-- Whether an element is a filter does not depend on what is in it.
theorem withoutFilters_of_isFilter (h : isFilter ⟨name, attributes, nil⟩ filter = true)
    (children rest : Content) :
    (element name attributes children rest).withoutFilters filter = rest.withoutFilters filter :=
  if_pos h

theorem withoutFilters_of_not_isFilter (h : ¬isFilter ⟨name, attributes, nil⟩ filter = true)
    (children rest : Content) :
    (element name attributes children rest).withoutFilters filter =
      element name attributes (children.withoutFilters filter) (rest.withoutFilters filter) :=
  if_neg h

theorem withoutFilters_withoutFilters_self (c : Content) (filter : String) :
    (c.withoutFilters filter).withoutFilters filter = c.withoutFilters filter := by
  induction c with
  | nil => rfl
  | element name attributes children rest ihChildren ihRest =>
    by_cases h : isFilter ⟨name, attributes, nil⟩ filter = true
    · rw [withoutFilters_of_isFilter h, ihRest]
    · rw [withoutFilters_of_not_isFilter h, withoutFilters_of_not_isFilter h, ihChildren, ihRest]
  | text t rest ih => rw [withoutFilters, withoutFilters, ih]
  | comment t rest ih => rw [withoutFilters, withoutFilters, ih]

/-- Filters of two names are taken out in either order. -/
theorem withoutFilters_comm (c : Content) (a b : String) :
    (c.withoutFilters a).withoutFilters b = (c.withoutFilters b).withoutFilters a := by
  induction c with
  | nil => rfl
  | element name attributes children rest ihChildren ihRest =>
    by_cases ha : isFilter ⟨name, attributes, nil⟩ a = true <;>
      by_cases hb : isFilter ⟨name, attributes, nil⟩ b = true
    · rw [withoutFilters_of_isFilter ha, withoutFilters_of_isFilter hb, ihRest]
    · rw [withoutFilters_of_isFilter ha, withoutFilters_of_not_isFilter hb,
        withoutFilters_of_isFilter ha, ihRest]
    · rw [withoutFilters_of_not_isFilter ha, withoutFilters_of_isFilter hb,
        withoutFilters_of_isFilter hb, ihRest]
    · rw [withoutFilters_of_not_isFilter ha, withoutFilters_of_not_isFilter hb,
        withoutFilters_of_not_isFilter hb, withoutFilters_of_not_isFilter ha, ihChildren, ihRest]
  | text t rest ih => rw [withoutFilters, withoutFilters, ih]; rfl
  | comment t rest ih => rw [withoutFilters, withoutFilters, ih]; rfl

theorem withoutFilters_append (c d : Content) (filter : String) :
    (c.append d).withoutFilters filter =
      (c.withoutFilters filter).append (d.withoutFilters filter) := by
  induction c with
  | nil => rfl
  | element name attributes children rest ihChildren ihRest =>
    by_cases h : isFilter ⟨name, attributes, nil⟩ filter = true
    · rw [append, withoutFilters_of_isFilter h, withoutFilters_of_isFilter h, ihRest]
    · rw [append, withoutFilters_of_not_isFilter h, withoutFilters_of_not_isFilter h, ihRest,
        append]
  | text t rest ih => rw [append, withoutFilters, ih]; rfl
  | comment t rest ih => rw [append, withoutFilters, ih]; rfl

theorem withoutFilters_ofFilter_self (filter : String) :
    (ofFilter filter).withoutFilters filter = nil := by
  simp [ofFilter, withoutFilters, isFilter, attribute?, Attributes.get?]

theorem withoutFilters_ofFilter_of_ne (h : filter ≠ other) :
    (ofFilter filter).withoutFilters other = ofFilter filter := by
  simp [ofFilter, withoutFilters, isFilter, attribute?, Attributes.get?, h]

theorem append_assoc (c d e : Content) : (c.append d).append e = c.append (d.append e) := by
  induction c with
  | nil => rfl
  | element name attributes children rest ihChildren ihRest => rw [append, append, ihRest, append]
  | text t rest ih => rw [append, append, ih, append]
  | comment t rest ih => rw [append, append, ih, append]

end

/-! ## The first blocking element of a tag -/

/-- Whether an element with a name and attributes is a blocking element of a tag. -/
def isTarget (tag : RuleTag) (name : String) (attributes : Attributes) : Bool :=
  isRule ⟨name, attributes, nil⟩ tag && isBlocking ⟨name, attributes, nil⟩

/-- Adds nodes at the end of the first blocking element of a tag, which no longer logs. Without such
an element a new one is added at the end. -/
def addUnder (tag : RuleTag) (added : Content) : Content → Content
  | nil => element tag.name [(blockKey, "true"), (logKey, "false")] added nil
  | element name attributes children rest =>
    if isTarget tag name attributes then
      element name (attributes.set logKey "false") (children.append added) rest
    else element name attributes children (addUnder tag added rest)
  | text t rest => text t (addUnder tag added rest)
  | comment t rest => comment t (addUnder tag added rest)

/-- Blocking adds a filter to the first blocking element of a tag. -/
theorem addBlockFilter_eq_addUnder (c : Content) (tag : RuleTag) (filter : String) :
    c.addBlockFilter tag filter = addUnder tag (ofFilter filter) c := by
  induction c with
  | nil => rfl
  | element name attributes children rest ihChildren ihRest =>
    rw [addBlockFilter, addUnder, ihRest]
    rfl
  | text t rest ih => rw [addBlockFilter, addUnder, ih]
  | comment t rest ih => rw [addBlockFilter, addUnder, ih]

section

variable {tag other : RuleTag} {name : String} {attributes : Attributes}

theorem isTarget_new (tag : RuleTag) :
    isTarget tag tag.name [(blockKey, "true"), (logKey, "false")] = true := by
  cases tag <;> decide

theorem name_of_isTarget (h : isTarget tag name attributes = true) : name = tag.name :=
  beq_iff_eq.1 (Bool.and_eq_true_iff.1 h).1

/-- An element is not one of two tags. -/
theorem not_isTarget_of_ne (hne : tag ≠ other) (h : isTarget tag name attributes = true)
    (bs : Attributes) : ¬isTarget other name bs = true := by
  intro hother
  have hname := (name_of_isTarget h).symm.trans (name_of_isTarget hother)
  revert hne hname
  cases tag <;> cases other <;> decide

/-- The log flag does not matter for what is blocked. -/
theorem isTarget_set (tag : RuleTag) (name : String) (attributes : Attributes) (value : String) :
    isTarget tag name (attributes.set logKey value) = isTarget tag name attributes := by
  simp only [isTarget, isRule, isBlocking, flag, attribute?]
  rw [Attributes.get?_set_of_ne (by decide)]

/-- A rule element is no filter. -/
theorem not_isFilter_of_isTarget (h : isTarget tag name attributes = true) (bs : Attributes)
    (filter : String) : ¬isFilter ⟨name, bs, nil⟩ filter = true := by
  rw [name_of_isTarget h]
  cases tag <;> simp [isFilter, RuleTag.name, filterTag]

theorem addUnder_of_isTarget (h : isTarget tag name attributes = true)
    (added children rest : Content) :
    addUnder tag added (element name attributes children rest) =
      element name (attributes.set logKey "false") (children.append added) rest :=
  if_pos h

theorem addUnder_of_not_isTarget (h : ¬isTarget tag name attributes = true)
    (added children rest : Content) :
    addUnder tag added (element name attributes children rest) =
      element name attributes children (addUnder tag added rest) :=
  if_neg h

/-- Nodes that are added to the first blocking element one after the other are added together. -/
theorem addUnder_addUnder_self (tag : RuleTag) (first second c : Content) :
    addUnder tag second (addUnder tag first c) = addUnder tag (first.append second) c := by
  induction c with
  | nil =>
    rw [addUnder, addUnder_of_isTarget (isTarget_new tag), addUnder]
    rfl
  | element name attributes children rest ihChildren ihRest =>
    by_cases h : isTarget tag name attributes = true
    · have hset := (isTarget_set tag name attributes "false").trans h
      rw [addUnder_of_isTarget h, addUnder_of_isTarget hset, addUnder_of_isTarget h,
        Attributes.set_set, append_assoc]
    · rw [addUnder_of_not_isTarget h, addUnder_of_not_isTarget h, addUnder_of_not_isTarget h,
        ihRest]
  | text t rest ih => rw [addUnder, addUnder, ih, addUnder]
  | comment t rest ih => rw [addUnder, addUnder, ih, addUnder]

/-- Elements of two tags are changed in either order, if the element that comes first in the
document has been there before. -/
theorem addUnder_addUnder_of_ne (hne : tag ≠ other) (first between second c : Content) :
    addUnder tag second (addUnder other between (addUnder tag first c)) =
      addUnder other between (addUnder tag (first.append second) c) := by
  -- The first element that one of the tags is about decides. Behind it only the other tag is looked
  -- for.
  induction c with
  | nil =>
    have hother := not_isTarget_of_ne hne (isTarget_new tag)
      [(blockKey, "true"), (logKey, "false")]
    rw [addUnder, addUnder, addUnder_of_not_isTarget hother,
      addUnder_of_isTarget (isTarget_new tag), addUnder_of_not_isTarget hother]
    rfl
  | element name attributes children rest ihChildren ihRest =>
    by_cases h : isTarget tag name attributes = true
    · have hset := (isTarget_set tag name attributes "false").trans h
      have hother := not_isTarget_of_ne hne h (attributes.set logKey "false")
      rw [addUnder_of_isTarget h, addUnder_of_not_isTarget hother, addUnder_of_isTarget hset,
        addUnder_of_isTarget h, addUnder_of_not_isTarget hother, Attributes.set_set, append_assoc]
    · rw [addUnder_of_not_isTarget h, addUnder_of_not_isTarget h]
      by_cases hother : isTarget other name attributes = true
      · have hset := not_isTarget_of_ne hne.symm hother (attributes.set logKey "false")
        rw [addUnder_of_isTarget hother, addUnder_of_not_isTarget hset, addUnder_of_isTarget hother,
          addUnder_addUnder_self]
      · rw [addUnder_of_not_isTarget hother, addUnder_of_not_isTarget h,
          addUnder_of_not_isTarget hother, ihRest]
  | text t rest ih => simp only [addUnder, ih]
  | comment t rest ih => simp only [addUnder, ih]

/-- Filters are taken out of what is added, and of what was there. -/
theorem withoutFilters_addUnder (tag : RuleTag) (added c : Content) (filter : String) :
    (addUnder tag added c).withoutFilters filter =
      addUnder tag (added.withoutFilters filter) (c.withoutFilters filter) := by
  induction c with
  | nil =>
    rw [addUnder, withoutFilters_of_not_isFilter (not_isFilter_of_isTarget (isTarget_new tag) _ _)]
    rfl
  | element name attributes children rest ihChildren ihRest =>
    by_cases h : isTarget tag name attributes = true
    · rw [addUnder_of_isTarget h,
        withoutFilters_of_not_isFilter (not_isFilter_of_isTarget h _ filter),
        withoutFilters_of_not_isFilter (not_isFilter_of_isTarget h _ filter),
        addUnder_of_isTarget h, withoutFilters_append]
    · rw [addUnder_of_not_isTarget h]
      by_cases hfilter : isFilter ⟨name, attributes, nil⟩ filter = true
      · rw [withoutFilters_of_isFilter hfilter, withoutFilters_of_isFilter hfilter, ihRest]
      · rw [withoutFilters_of_not_isFilter hfilter, withoutFilters_of_not_isFilter hfilter,
          addUnder_of_not_isTarget h, ihRest]
  | text t rest ih => simp only [addUnder, withoutFilters, ih]
  | comment t rest ih => simp only [addUnder, withoutFilters, ih]

end

/-! ## Runs of blocking edits -/

/-- Blocks a component, given the tag and the name of its filter. -/
def block (c : Content) (e : RuleTag × String) : Content :=
  addUnder e.1 (ofFilter e.2) (c.withoutFilters e.2)

/-- Makes sure that there is a blocking element for a component, which does not log. -/
def prepare (c : Content) (e : RuleTag × String) : Content := addUnder e.1 nil c

/-- A blocking element that is there is not affected by another one. -/
theorem addUnder_addUnder_nil (tag other : RuleTag) (added c : Content) :
    addUnder tag added (addUnder other nil (addUnder tag nil c)) =
      addUnder other nil (addUnder tag added c) := by
  by_cases h : tag = other
  · subst h
    rw [addUnder_addUnder_self, addUnder_addUnder_self, addUnder_addUnder_self, append_nil]
    rfl
  · exact addUnder_addUnder_of_ne h nil nil added c

theorem addUnder_foldl_prepare (tag : RuleTag) (added : Content) (v : List (RuleTag × String))
    (c : Content) :
    addUnder tag added (v.foldl prepare (addUnder tag nil c)) =
      v.foldl prepare (addUnder tag added c) := by
  induction v generalizing c with
  | nil => exact addUnder_addUnder_self tag nil added c
  | cons e rest ih =>
    -- The element is there in each of the steps, so that it can be added to at any of them.
    rw [List.foldl_cons, List.foldl_cons, prepare, prepare, ← addUnder_addUnder_nil tag e.1 nil, ih,
      addUnder_addUnder_nil]

theorem withoutFilters_foldl_prepare (v : List (RuleTag × String)) (c : Content)
    (filter : String) :
    (v.foldl prepare c).withoutFilters filter = v.foldl prepare (c.withoutFilters filter) := by
  induction v generalizing c with
  | nil => rfl
  | cons e rest ih =>
    rw [List.foldl_cons, List.foldl_cons, ih, prepare, withoutFilters_addUnder]
    rfl

/-- Without its filter, all that is left of blocking a component is the blocking element. -/
theorem withoutFilters_block_self (c : Content) (e : RuleTag × String) :
    (c.block e).withoutFilters e.2 = (c.withoutFilters e.2).prepare e := by
  rw [block, withoutFilters_addUnder, withoutFilters_ofFilter_self,
    withoutFilters_withoutFilters_self, prepare]

theorem withoutFilters_block_of_ne {e : RuleTag × String} {filter : String} (h : e.2 ≠ filter)
    (c : Content) : (c.block e).withoutFilters filter = (c.withoutFilters filter).block e := by
  rw [block, withoutFilters_addUnder, withoutFilters_ofFilter_of_ne h, withoutFilters_comm, block]

/-- Filters that a run of blocking edits moves do not matter for where they end up. -/
theorem foldl_block_congr {u : List (RuleTag × String)} {filter : String}
    (hmem : ∃ e ∈ u, e.2 = filter) {c d : Content}
    (h : c.withoutFilters filter = d.withoutFilters filter) :
    u.foldl block c = u.foldl block d := by
  induction u generalizing c d with
  | nil => simp at hmem
  | cons e rest ih =>
    rw [List.foldl_cons, List.foldl_cons]
    by_cases he : e.2 = filter
    · subst he
      rw [block, block, h]
    · obtain ⟨e', hmem', he'⟩ := hmem
      rcases List.mem_cons.1 hmem' with rfl | hrest
      · exact absurd he' he
      · exact ih ⟨e', hrest, he'⟩ (by
          rw [withoutFilters_block_of_ne he, withoutFilters_block_of_ne he, h])

/-- Of edits whose filters are moved again later on, only the blocking elements are left. -/
theorem foldl_block_foldl_block {u v : List (RuleTag × String)}
    (h : ∀ e ∈ v, ∃ e' ∈ u, e'.2 = e.2) (c : Content) :
    u.foldl block (v.foldl block c) = u.foldl block (v.foldl prepare c) := by
  induction v generalizing c with
  | nil => rfl
  | cons e rest ih =>
    rw [List.foldl_cons, List.foldl_cons, ih fun e' he' => h e' (List.mem_cons_of_mem e he')]
    refine foldl_block_congr (h e List.mem_cons_self) ?_
    rw [withoutFilters_foldl_prepare, withoutFilters_foldl_prepare, withoutFilters_block_self,
      prepare, prepare, withoutFilters_addUnder]
    rfl

/-- It does not matter whether the blocking elements are there before. -/
theorem foldl_block_foldl_prepare (w : List (RuleTag × String)) (c : Content) :
    w.foldl block (w.foldl prepare c) = w.foldl block c := by
  induction w generalizing c with
  | nil => rfl
  | cons e rest ih =>
    have hmove : (rest.foldl prepare (c.prepare e)).block e = rest.foldl prepare (c.block e) := by
      rw [block, withoutFilters_foldl_prepare, prepare, withoutFilters_addUnder]
      exact addUnder_foldl_prepare e.1 (ofFilter e.2) rest (c.withoutFilters e.2)
    rw [List.foldl_cons, List.foldl_cons, List.foldl_cons, hmove, ih]

/-- A second run of the same blocking edits changes nothing. -/
theorem foldl_block_foldl_block_self (w : List (RuleTag × String)) (c : Content) :
    w.foldl block (w.foldl block c) = w.foldl block c := by
  rw [foldl_block_foldl_block fun e he => ⟨e, he, rfl⟩, foldl_block_foldl_prepare]

end Content
end Xml

/-! ## Documents -/

namespace Document

theorem withoutFilters_comm (d : Document) (a b : String) :
    (d.withoutFilters a).withoutFilters b = (d.withoutFilters b).withoutFilters a := by
  simp only [withoutFilters, d.content.withoutFilters_comm a b]

theorem withoutFilters_withoutFilters_self (d : Document) (filter : String) :
    (d.withoutFilters filter).withoutFilters filter = d.withoutFilters filter := by
  simp only [withoutFilters, d.content.withoutFilters_withoutFilters_self filter]

theorem withoutFilters_foldl (filters : List String) (d : Document) (filter : String) :
    (filters.foldl withoutFilters d).withoutFilters filter =
      filters.foldl withoutFilters (d.withoutFilters filter) := by
  induction filters generalizing d with
  | nil => rfl
  | cons a rest ih => rw [List.foldl_cons, List.foldl_cons, ih, withoutFilters_comm]

/-- Taking out filters a second time changes nothing. -/
theorem foldl_withoutFilters_foldl (filters : List String) (d : Document) :
    filters.foldl withoutFilters (filters.foldl withoutFilters d) =
      filters.foldl withoutFilters d := by
  induction filters generalizing d with
  | nil => rfl
  | cons a rest ih =>
    rw [List.foldl_cons, List.foldl_cons, withoutFilters_foldl, withoutFilters_withoutFilters_self,
      ih]

end Document

namespace RuleStore

theorem blocked_eq (entries : List (RuleTag × String)) (d : Document) :
    blocked entries d = { d with content := entries.foldl Xml.Content.block d.content } := by
  induction entries generalizing d with
  | nil => rfl
  | cons e rest ih =>
    rw [blocked, List.foldl_cons, ← blocked, ih, List.foldl_cons, Document.block,
      Document.addBlockFilter, Xml.Content.addBlockFilter_eq_addUnder]
    rfl

/-- Blocking components a second time changes nothing. -/
theorem blocked_blocked (entries : List (RuleTag × String)) (d : Document) :
    blocked entries (blocked entries d) = blocked entries d := by
  simp only [blocked_eq, Xml.Content.foldl_block_foldl_block_self]

end RuleStore
end IntentFirewall
