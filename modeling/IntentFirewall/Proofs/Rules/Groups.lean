import IntentFirewall.Proofs.LastValue
import IntentFirewall.Proofs.Rules.Preservation
import IntentFirewall.Proofs.Rules.RuleSets

/-!
# Documents of blocking rules

The documents that the rule store writes, if it started without one: a blocking element that does
not log for each tag that was ever needed, with filters in it and nothing else.

* `Groups`: the names of the filters in each of these elements.
* `Groups.Reflects`: the groups are what a list of edits has led to, where the last edit of a name
  decides. `Groups.Reflects.remove` and `Groups.Reflects.add` are the steps.
* `Document.ofGroups`: the document. The edits of a document are those of its groups
  (`Document.withoutFilters_ofGroups`, `Document.block_ofGroups`), and it is read back as it is
  (`Document.ofBytes_toBytes_ofGroups`).
-/

namespace IntentFirewall

/-- The names of the filters in each rule element. -/
abbrev Groups := List (RuleTag × List String)

namespace Groups

/-- The tags of the groups. -/
def tags (g : Groups) : List RuleTag := g.map Prod.fst

/-- The names in all groups. -/
def names (g : Groups) : List String := g.flatMap Prod.snd

/-- Whether a name is in a group of a tag. -/
def Has (g : Groups) (tag : RuleTag) (name : String) : Prop :=
  ∃ names, (tag, names) ∈ g ∧ name ∈ names

/-- The groups without a name. -/
def remove (name : String) (g : Groups) : Groups := g.map fun p => (p.1, p.2.filter (· != name))

/-- Puts a name into the group of a tag, or into a new one behind the others. -/
def add (tag : RuleTag) (name : String) : Groups → Groups
  | [] => [(tag, [name])]
  | p :: rest => if p.1 = tag then (p.1, p.2 ++ [name]) :: rest else p :: add tag name rest

variable {g : Groups} {tag other : RuleTag} {name m : String}

theorem tags_cons (p : RuleTag × List String) (g : Groups) : tags (p :: g) = p.1 :: tags g := rfl

theorem names_cons (p : RuleTag × List String) (g : Groups) : names (p :: g) = p.2 ++ names g :=
  List.flatMap_cons

theorem remove_cons (name : String) (p : RuleTag × List String) (g : Groups) :
    remove name (p :: g) = (p.1, p.2.filter (· != name)) :: remove name g := rfl

theorem has_cons {p : RuleTag × List String} :
    Has (p :: g) tag name ↔ p.1 = tag ∧ name ∈ p.2 ∨ g.Has tag name := by
  obtain ⟨t, names⟩ := p
  simp only [Has, List.mem_cons, Prod.mk.injEq, or_and_right, exists_or, and_assoc,
    exists_and_left, exists_eq_left, eq_comm (a := t)]

/-- The names in the groups are those that a group of some tag has. -/
theorem mem_names_iff : name ∈ g.names ↔ ∃ tag, g.Has tag name := by
  simp only [names, Has, List.mem_flatMap, Prod.exists]

theorem tags_remove (name : String) (g : Groups) : (g.remove name).tags = g.tags := by
  rw [tags, remove, List.map_map]
  rfl

theorem names_remove (name : String) (g : Groups) :
    (g.remove name).names = g.names.filter (· != name) := by
  induction g with
  | nil => rfl
  | cons p rest ih => rw [remove_cons, names_cons, names_cons, List.filter_append, ih]

theorem has_remove : (g.remove name).Has tag m ↔ g.Has tag m ∧ m ≠ name := by
  induction g with
  | nil => simp [remove, Has]
  | cons p rest ih =>
    rw [remove_cons, has_cons, has_cons, ih, List.mem_filter, bne_iff_ne]
    tauto

theorem tags_add (tag : RuleTag) (name : String) (g : Groups) :
    (g.add tag name).tags = if tag ∈ g.tags then g.tags else g.tags ++ [tag] := by
  induction g with
  | nil => rfl
  | cons p rest ih =>
    rw [add]
    split
    next h => rw [tags_cons, tags_cons, if_pos (List.mem_cons.2 (.inl h.symm))]
    next h =>
      rw [tags_cons, tags_cons, ih]
      simp only [List.mem_cons, Ne.symm h, false_or]
      split <;> rfl

/-- A name that is put into a group is one more name. -/
theorem names_add_perm (tag : RuleTag) (name : String) (g : Groups) :
    (g.add tag name).names.Perm (name :: g.names) := by
  induction g with
  | nil => exact List.Perm.refl _
  | cons p rest ih =>
    rw [add]
    split
    next =>
      rw [names_cons, names_cons, List.append_assoc, List.singleton_append]
      exact List.perm_middle
    next =>
      rw [names_cons, names_cons]
      exact (ih.append_left p.2).trans List.perm_middle

theorem has_add : (g.add tag name).Has other m ↔ g.Has other m ∨ other = tag ∧ m = name := by
  induction g with
  | nil => simp [add, Has, eq_comm]
  | cons p rest ih =>
    rw [add]
    split
    next h =>
      rw [has_cons, has_cons, List.mem_append, List.mem_singleton, h, eq_comm (a := tag)]
      tauto
    next => rw [has_cons, has_cons, ih, or_assoc]

/-! ## Groups as the result of edits -/

/-- The groups are what edits have led to: a name is in the group of the tag by which the last
edit of the name has blocked it, and in no other group. -/
structure Reflects (g : Groups) (edits : List (String × Option RuleTag)) : Prop where
  /-- There is one group of each tag. -/
  tags : g.tags.Nodup
  /-- No name comes twice. -/
  names : g.names.Nodup
  /-- The last edit decides. -/
  has : ∀ tag name, g.Has tag name ↔ lastValue? name edits = some (some tag)

variable {edits : List (String × Option RuleTag)}

theorem reflects_nil : Reflects [] [] where
  tags := List.nodup_nil
  names := List.nodup_nil
  has tag name := by simp [Has]

theorem Reflects.remove (h : g.Reflects edits) (name : String) :
    (g.remove name).Reflects (edits ++ [(name, none)]) where
  tags := tags_remove name g ▸ h.tags
  names := names_remove name g ▸ h.names.filter _
  has tag m := by
    rw [has_remove, h.has, lastValue?_concat]
    by_cases hm : name = m
    · simp [hm]
    · simp [hm, Ne.symm hm]

theorem Reflects.add (h : g.Reflects edits) (tag : RuleTag) (name : String) :
    ((g.remove name).add tag name).Reflects (edits ++ [(name, some tag)]) where
  tags := by
    rw [tags_add, tags_remove]
    -- A new group comes behind the others, and only if there was none of its tag.
    split
    next => exact h.tags
    next hnew =>
      refine List.nodup_append.2 ⟨h.tags, by simp, fun t ht u hu => ?_⟩
      rw [List.mem_singleton.1 hu]
      exact ne_of_mem_of_not_mem ht hnew
  names := by
    -- The name has just been taken out of all groups.
    rw [(names_add_perm tag name _).nodup_iff, names_remove, List.nodup_cons]
    exact ⟨by simp, h.names.filter _⟩
  has other m := by
    rw [has_add, has_remove, h.has, lastValue?_concat]
    by_cases hm : name = m
    · simp [hm, eq_comm]
    · simp [hm, Ne.symm hm]

/-- Taking out names one after the other. -/
theorem Reflects.removeAll (h : g.Reflects edits) (names : List String) :
    Reflects (names.foldl (fun g name => g.remove name) g)
      (edits ++ names.map fun name => (name, none)) := by
  induction names generalizing g edits with
  | nil => simpa using h
  | cons name rest ih => simpa using ih (h.remove name)

theorem foldl_remove_nil (names : List String) :
    names.foldl (fun g name => remove name g) [] = [] := by
  induction names with
  | nil => rfl
  | cons name rest ih => exact ih

/-- Blocking names one after the other. -/
theorem Reflects.blockAll (h : g.Reflects edits) (entries : List (RuleTag × String)) :
    Reflects (entries.foldl (fun g e => (g.remove e.2).add e.1 e.2) g)
      (edits ++ entries.map fun e => (e.2, some e.1)) := by
  induction entries generalizing g edits with
  | nil => simpa using h
  | cons e rest ih => simpa using ih (h.add e.1 e.2)

end Groups

/-! ## Contents -/

namespace Xml.Content

open Element

/-- Filters side by side. -/
def ofFilters : List String → Content
  | [] => nil
  | name :: rest => element filterTag [(nameKey, name)] nil (ofFilters rest)

/-- A blocking element that does not log for each group, with the filters of its names. -/
def ofGroups : Groups → Content
  | [] => nil
  | p :: rest =>
    element p.1.name [(blockKey, "true"), (logKey, "false")] (ofFilters p.2) (ofGroups rest)

/-- The names of the filters at any depth of a content; a filter may have none. -/
def filters : Content → List (Option String)
  | nil => []
  | element name attributes children rest =>
    (if name = filterTag then [attributes.get? nameKey] else []) ++ children.filters ++ rest.filters
  | text _ rest => rest.filters
  | comment _ rest => rest.filters

theorem withoutFilters_ofFilters (filter : String) (names : List String) :
    (ofFilters names).withoutFilters filter = ofFilters (names.filter (· != filter)) := by
  induction names with
  | nil => rfl
  | cons name rest ih =>
    have hfilter : isFilter ⟨filterTag, [(nameKey, name)], nil⟩ filter = (name == filter) := by
      simp [isFilter, attribute?, Attributes.get?]
    rw [ofFilters, withoutFilters, hfilter, ih, List.filter_cons, bne]
    cases name == filter <;> rfl

theorem withoutFilters_ofGroups (filter : String) (g : Groups) :
    (ofGroups g).withoutFilters filter = ofGroups (g.remove filter) := by
  induction g with
  | nil => rfl
  | cons p rest ih =>
    have hfilter (children : Content) : isFilter
        ⟨p.1.name, [(blockKey, "true"), (logKey, "false")], children⟩ filter = false := by
      cases p.1 <;> rfl
    rw [ofGroups, withoutFilters, hfilter, withoutFilters_ofFilters, ih, Groups.remove_cons,
      ofGroups]
    rfl

theorem append_ofFilter (names : List String) (filter : String) :
    (ofFilters names).append (ofFilter filter) = ofFilters (names ++ [filter]) := by
  induction names with
  | nil => rfl
  | cons name rest ih => rw [ofFilters, append, ih, List.cons_append, ofFilters]

theorem addBlockFilter_ofGroups (tag : RuleTag) (filter : String) (g : Groups) :
    (ofGroups g).addBlockFilter tag filter = ofGroups (g.add tag filter) := by
  induction g with
  | nil => rfl
  | cons p rest ih =>
    have hrule : (isRule ⟨p.1.name, [(blockKey, "true"), (logKey, "false")], ofFilters p.2⟩ tag &&
        isBlocking ⟨p.1.name, [(blockKey, "true"), (logKey, "false")], ofFilters p.2⟩) =
          decide (p.1 = tag) := by
      cases p.1 <;> cases tag <;> rfl
    rw [ofGroups, addBlockFilter, hrule, Groups.add]
    by_cases h : p.1 = tag
    · rw [if_pos h, if_pos (decide_eq_true h), append_ofFilter]
      rfl
    · rw [if_neg h, if_neg (by simpa using h), ih]
      rfl

theorem isWellNamed_ofFilters (names : List String) : (ofFilters names).IsWellNamed := by
  induction names with
  | nil => trivial
  | cons name rest ih =>
    obtain ⟨hname, hattributes, -, -⟩ := isWellNamed_ofFilter name
    exact ⟨hname, hattributes, trivial, ih⟩

theorem isWellNamed_ofGroups (g : Groups) : (ofGroups g).IsWellNamed := by
  induction g with
  | nil => trivial
  | cons p rest ih => exact ⟨isXmlName_name p.1, by decide, isWellNamed_ofFilters p.2, ih⟩

theorem isNormal_ofFilters (names : List String) : (ofFilters names).IsNormal := by
  induction names with
  | nil => trivial
  | cons name rest ih => exact ⟨trivial, ih⟩

theorem isNormal_ofGroups (g : Groups) : (ofGroups g).IsNormal := by
  induction g with
  | nil => trivial
  | cons p rest ih => exact ⟨isNormal_ofFilters p.2, ih⟩

/-! ## Elements and filters -/

theorem filterNames_ofFilters (name : String) (as : Attributes) (names : List String) :
    filterNames ⟨name, as, ofFilters names⟩ = names := by
  induction names with
  | nil => rfl
  | cons n rest ih =>
    rw [ofFilters, filterNames_element, ih, if_pos rfl]
    rfl

theorem elements_ofGroups (g : Groups) :
    (ofGroups g).elements = g.map fun p =>
      ⟨p.1.name, [(blockKey, "true"), (logKey, "false")], ofFilters p.2⟩ := by
  induction g with
  | nil => rfl
  | cons p rest ih => rw [ofGroups, elements, ih, List.map_cons]

theorem filters_ofFilters (names : List String) : (ofFilters names).filters = names.map some := by
  induction names with
  | nil => rfl
  | cons name rest ih =>
    rw [ofFilters, filters, ih, if_pos rfl]
    rfl

theorem filters_ofGroups (g : Groups) : (ofGroups g).filters = g.names.map some := by
  induction g with
  | nil => rfl
  | cons p rest ih =>
    have hname : p.1.name ≠ filterTag := by cases p.1 <;> decide
    rw [ofGroups, filters, if_neg hname, filters_ofFilters, ih, Groups.names_cons, List.map_append,
      List.nil_append]

end Xml.Content

/-! ## Documents -/

namespace Document

/-- The document of groups. -/
def ofGroups (g : Groups) : Document := ⟨[], .ofGroups g⟩

theorem withoutFilters_ofGroups (filter : String) (g : Groups) :
    (ofGroups g).withoutFilters filter = ofGroups (g.remove filter) := by
  rw [ofGroups, withoutFilters, Xml.Content.withoutFilters_ofGroups, ofGroups]

theorem block_ofGroups (tag : RuleTag) (filter : String) (g : Groups) :
    (ofGroups g).block tag filter = ofGroups ((g.remove filter).add tag filter) := by
  rw [block, withoutFilters_ofGroups, ofGroups, addBlockFilter,
    Xml.Content.addBlockFilter_ofGroups, ofGroups]

theorem foldl_withoutFilters_ofGroups (filters : List String) (g : Groups) :
    filters.foldl withoutFilters (ofGroups g) =
      ofGroups (filters.foldl (fun g filter => g.remove filter) g) := by
  induction filters generalizing g with
  | nil => rfl
  | cons filter rest ih => rw [List.foldl_cons, List.foldl_cons, withoutFilters_ofGroups, ih]

theorem foldl_block_ofGroups (entries : List (RuleTag × String)) (g : Groups) :
    entries.foldl (fun d e => d.block e.1 e.2) (ofGroups g) =
      ofGroups (entries.foldl (fun g e => (g.remove e.2).add e.1 e.2) g) := by
  induction entries generalizing g with
  | nil => rfl
  | cons e rest ih => rw [List.foldl_cons, List.foldl_cons, block_ofGroups, ih]

theorem mem_elements_ofGroups {g : Groups} {e : Xml.Element} :
    e ∈ (ofGroups g).content.elements ↔ ∃ p ∈ g, e = ⟨p.1.name,
      [(Xml.Element.blockKey, "true"), (Xml.Element.logKey, "false")], .ofFilters p.2⟩ := by
  rw [ofGroups, Xml.Content.elements_ofGroups, List.mem_map]
  simp only [eq_comm]

/-- Every element blocks and does not log. -/
theorem isRule_of_mem_ofGroups {g : Groups} {e : Xml.Element}
    (h : e ∈ (ofGroups g).content.elements) :
    (∃ tag, e.isRule tag = true) ∧ e.isBlocking = true ∧ e.isLogging = false := by
  obtain ⟨p, -, rfl⟩ := mem_elements_ofGroups.1 h
  exact ⟨⟨p.1, beq_self_eq_true _⟩, rfl, rfl⟩

/-- If there is one group of each tag, there is at most one element of each name. -/
theorem nodup_name_ofGroups {g : Groups} (h : g.tags.Nodup) :
    ((ofGroups g).content.elements.map (·.name)).Nodup := by
  have hnames : (ofGroups g).content.elements.map (·.name) = g.tags.map RuleTag.name := by
    rw [ofGroups, Xml.Content.elements_ofGroups, List.map_map, Groups.tags, List.map_map]
    rfl
  rw [hnames]
  exact h.map fun _ _ => RuleTag.name_injective

/-- The element of a tag has the filters of the group of the tag. -/
theorem mem_filterNames_ofGroups_iff {g : Groups} {tag : RuleTag} {filter : String} :
    (∃ e ∈ (ofGroups g).content.elements, e.isRule tag = true ∧ filter ∈ e.filterNames) ↔
      g.Has tag filter := by
  constructor
  · rintro ⟨e, he, hrule, hfilter⟩
    obtain ⟨⟨t, names⟩, hp, rfl⟩ := mem_elements_ofGroups.1 he
    obtain rfl := RuleTag.name_injective (eq_of_beq hrule)
    rw [Xml.Content.filterNames_ofFilters] at hfilter
    exact ⟨names, hp, hfilter⟩
  · rintro ⟨names, hp, hfilter⟩
    refine ⟨_, mem_elements_ofGroups.2 ⟨_, hp, rfl⟩, beq_self_eq_true _, ?_⟩
    rw [Xml.Content.filterNames_ofFilters]
    exact hfilter

/-- If no name comes twice, no filter does. -/
theorem nodup_filters_ofGroups {g : Groups} (h : g.names.Nodup) :
    (ofGroups g).content.filters.Nodup := by
  rw [ofGroups, Xml.Content.filters_ofGroups]
  exact h.map fun _ _ => Option.some.inj

/-- The document of groups is read back as it is. -/
theorem ofBytes_toBytes_ofGroups (g : Groups) :
    ofBytes (ofGroups g).toBytes = .ok (ofGroups g) := by
  have hroot : Xml.Attributes.AreWellNamed [] := by decide
  have hnamed : (ofGroups g).IsWellNamed := ⟨hroot, Xml.Content.isWellNamed_ofGroups g⟩
  rw [ofBytes_toBytes hnamed.isReadable hnamed.isSealed,
    normal_eq_self_iff.2 (Xml.Content.isNormal_ofGroups g)]

end Document
end IntentFirewall
