import IntentFirewall.Proofs.Rules.Idempotence
import IntentFirewall.Proofs.Xml.Occurrence

/-!
# Filters that are taken out

Taking out the filters of a name deletes them with all that is in them, and leaves every other node
as it was and where it was. The number that is told afterwards is that of the deletions. A filter
that lies in another one of the same name goes with that one, and is not told.

## Main definitions

* `Xml.Occurrence.isFilter`, `Xml.Occurrence.isInFilter`: nodes that are filters, and nodes in
  filters.
* `Document.removed`: the number that an edit tells.

## Main results

* `Xml.Content.occurrences_withoutFilters`: the nodes that are left.
* `Document.removed_eq_filterCount_iff`: the number of filters that are told, and exactly when these
  are all that have been there.
-/

namespace IntentFirewall
namespace Xml

/-- Whether a node is a filter of a given name. -/
def Node.isFilter (filter : String) : Node → Bool
  | element name attributes => Element.isFilter ⟨name, attributes, .nil⟩ filter
  | text _ => false
  | comment _ => false

namespace Occurrence

/-- Whether a node is a filter of a given name. -/
def isFilter (filter : String) (o : Occurrence) : Bool := o.node.isFilter filter

/-- Whether a node lies in a filter of a given name. -/
def isInFilter (filter : String) (o : Occurrence) : Bool := o.enclosing.any (Node.isFilter filter)

/-- Whether a node is a filter of a given name and lies in no other one. -/
def isOuterFilter (filter : String) (o : Occurrence) : Bool :=
  o.isFilter filter && !o.isInFilter filter

/-- Whether a node is a filter of a given name and lies in another one. -/
def isInnerFilter (filter : String) (o : Occurrence) : Bool :=
  o.isFilter filter && o.isInFilter filter

/-- Whether a node neither is nor lies in a filter of a given name. -/
def isSpared (filter : String) (o : Occurrence) : Bool :=
  !o.isFilter filter && !o.isInFilter filter

end Occurrence

namespace Content

variable {filter name : String} {attributes : Attributes} {enclosing : List Node}

/-- What a filter encloses lies in a filter. -/
theorem isInFilter_of_mem {c : Content} {o : Occurrence}
    (h : enclosing.any (Node.isFilter filter) = true) (ho : o ∈ c.occurrencesIn enclosing) :
    o.isInFilter filter = true := by
  obtain ⟨n, hn, hfilter⟩ := List.any_eq_true.1 h
  exact List.any_eq_true.2 ⟨n, (suffix_enclosing ho).subset hn, hfilter⟩

/-- Around the content of a filter there is a filter. -/
theorem any_isFilter_cons_of_isFilter
    (h : Element.isFilter ⟨name, attributes, nil⟩ filter = true) (enclosing : List Node) :
    (Node.element name attributes :: enclosing).any (Node.isFilter filter) = true :=
  List.any_eq_true.2 ⟨_, List.mem_cons_self, h⟩

/-- Around the content of another element there is a filter only if there is one around the
element. -/
theorem any_isFilter_cons (h : ¬Element.isFilter ⟨name, attributes, nil⟩ filter = true)
    (henclosing : enclosing.any (Node.isFilter filter) = false) :
    (Node.element name attributes :: enclosing).any (Node.isFilter filter) = false := by
  rw [List.any_cons, henclosing, Bool.or_false]
  exact Bool.eq_false_iff.2 h

/-! ## What is left -/

/-- Where no filter is around, a node is left if it is no filter itself. -/
theorem isSpared_of_any_eq_false (henclosing : enclosing.any (Node.isFilter filter) = false)
    (n : Node) : Occurrence.isSpared filter ⟨n, enclosing⟩ = !n.isFilter filter := by
  simp [Occurrence.isSpared, Occurrence.isFilter, Occurrence.isInFilter, henclosing]

/-- The nodes that are left when filters are taken out are those that are not in a filter. -/
theorem occurrencesIn_withoutFilters (c : Content)
    (henclosing : enclosing.any (Node.isFilter filter) = false) :
    (c.withoutFilters filter).occurrencesIn enclosing =
      (c.occurrencesIn enclosing).filter (·.isSpared filter) := by
  induction c generalizing enclosing with
  | nil => rfl
  | element name attributes children rest ihChildren ihRest =>
    rw [occurrencesIn, List.filter_cons, List.filter_append, isSpared_of_any_eq_false henclosing,
      Node.isFilter, ← ihRest henclosing]
    by_cases h : Element.isFilter ⟨name, attributes, nil⟩ filter = true
    · -- The filter goes, and with it all nodes that it encloses.
      have hchildren : (children.occurrencesIn (.element name attributes :: enclosing)).filter
          (·.isSpared filter) = [] := by
        rw [List.filter_eq_nil_iff]
        intro o ho
        have hin := isInFilter_of_mem (any_isFilter_cons_of_isFilter h enclosing) ho
        simp [Occurrence.isSpared, hin]
      rw [withoutFilters_of_isFilter h, hchildren, h]
      rfl
    · rw [withoutFilters_of_not_isFilter h, occurrencesIn, if_pos (by simpa using h),
        ihChildren (any_isFilter_cons h henclosing)]
  | text t rest ih =>
    rw [withoutFilters, occurrencesIn, occurrencesIn, List.filter_cons,
      isSpared_of_any_eq_false henclosing, ih henclosing]
    rfl
  | comment t rest ih =>
    rw [withoutFilters, occurrencesIn, occurrencesIn, List.filter_cons,
      isSpared_of_any_eq_false henclosing, ih henclosing]
    rfl

theorem occurrences_withoutFilters (c : Content) (filter : String) :
    (c.withoutFilters filter).occurrences = c.occurrences.filter (·.isSpared filter) :=
  c.occurrencesIn_withoutFilters rfl

/-! ## How many there are -/

theorem filterCount_eq_countP (c : Content) (filter : String) (enclosing : List Node) :
    c.filterCount filter = (c.occurrencesIn enclosing).countP (·.isFilter filter) := by
  induction c generalizing enclosing with
  | nil => rfl
  | element name attributes children rest ihChildren ihRest =>
    rw [filterCount, occurrencesIn, List.countP_cons, List.countP_append, ← ihChildren, ← ihRest,
      Nat.add_assoc, Nat.add_comm]
    rfl
  | text t rest ih => exact ih enclosing
  | comment t rest ih => exact ih enclosing

/-- Taken out, no filter of the name is left. -/
theorem filterCount_withoutFilters_self (c : Content) (filter : String) :
    (c.withoutFilters filter).filterCount filter = 0 := by
  rw [filterCount_eq_countP _ filter [], ← occurrences, occurrences_withoutFilters,
    List.countP_eq_zero]
  intro o ho hfilter
  have hspared := (List.mem_filter.1 ho).2
  simp [Occurrence.isSpared, hfilter] at hspared

/-- Where no filter is around, a filter lies in no other one. -/
theorem isOuterFilter_of_any_eq_false (henclosing : enclosing.any (Node.isFilter filter) = false)
    (n : Node) : Occurrence.isOuterFilter filter ⟨n, enclosing⟩ = n.isFilter filter := by
  simp [Occurrence.isOuterFilter, Occurrence.isFilter, Occurrence.isInFilter, henclosing]

/-- The filters that are counted when they are taken out are those that lie in no other one. -/
theorem removedCount_eq_countP (c : Content)
    (henclosing : enclosing.any (Node.isFilter filter) = false) :
    c.removedCount filter = (c.occurrencesIn enclosing).countP (·.isOuterFilter filter) := by
  induction c generalizing enclosing with
  | nil => rfl
  | element name attributes children rest ihChildren ihRest =>
    have hstep : (element name attributes children rest).removedCount filter =
        (if Element.isFilter ⟨name, attributes, nil⟩ filter then 1
          else children.removedCount filter) + rest.removedCount filter := rfl
    rw [hstep, occurrencesIn, List.countP_cons, List.countP_append,
      isOuterFilter_of_any_eq_false henclosing, Node.isFilter, ← ihRest henclosing]
    by_cases h : Element.isFilter ⟨name, attributes, nil⟩ filter = true
    · -- The filters in the one that goes are not counted.
      have hchildren : (children.occurrencesIn (.element name attributes :: enclosing)).countP
          (·.isOuterFilter filter) = 0 := by
        rw [List.countP_eq_zero]
        intro o ho
        have hin := isInFilter_of_mem (any_isFilter_cons_of_isFilter h enclosing) ho
        simp [Occurrence.isOuterFilter, hin]
      rw [if_pos h, if_pos h, hchildren, Nat.zero_add, Nat.add_comm]
    · rw [if_neg h, if_neg h, ihChildren (any_isFilter_cons h henclosing), Nat.add_zero]
  | text t rest ih =>
    rw [occurrencesIn, List.countP_cons, isOuterFilter_of_any_eq_false henclosing,
      ← ih henclosing]
    rfl
  | comment t rest ih =>
    rw [occurrencesIn, List.countP_cons, isOuterFilter_of_any_eq_false henclosing,
      ← ih henclosing]
    rfl

/-- What is not counted are the filters that lie in other ones. -/
theorem filterCount_eq_add (c : Content) (filter : String) :
    c.filterCount filter =
      c.removedCount filter + c.occurrences.countP (·.isInnerFilter filter) := by
  have houter : c.removedCount filter = c.occurrences.countP (·.isOuterFilter filter) :=
    c.removedCount_eq_countP rfl
  rw [houter, c.filterCount_eq_countP filter [], ← occurrences]
  induction c.occurrences with
  | nil => rfl
  | cons o rest ih =>
    rw [List.countP_cons, List.countP_cons, List.countP_cons, ih, Occurrence.isOuterFilter,
      Occurrence.isInnerFilter]
    cases o.isFilter filter <;> cases o.isInFilter filter <;> simp <;> omega

end Content
end Xml

/-! ## Documents -/

namespace Document

/-- The name of the filters that an edit takes out. -/
def Change.filter : Change → String
  | .block _ filter => filter
  | .removeFilters filter => filter

/-- The number that an edit tells: that of the filters which have been taken out. -/
def removed (d : Document) : Change → Nat
  | .block _ filter => d.removedCount filter
  | .removeFilters filter => d.removedCount filter

theorem removed_eq (d : Document) (c : Change) : d.removed c = d.removedCount c.filter := by
  cases c <;> rfl

/-- Although an edit leaves none of the filters that it takes out, the number that it tells is that
of the filters which lie in no other one. It falls short by those that do, and so it is the number
of all filters of the name exactly if none of them lies in another one. -/
theorem removed_eq_filterCount_iff (d : Document) (c : Change) :
    (d.withoutFilters c.filter).filterCount c.filter = 0 ∧
      d.removed c = d.content.occurrences.countP (·.isOuterFilter c.filter) ∧
      d.filterCount c.filter =
        d.removed c + d.content.occurrences.countP (·.isInnerFilter c.filter) ∧
      (d.removed c = d.filterCount c.filter ↔
        ∀ o ∈ d.content.occurrences, o.isFilter c.filter = true →
          o.isInFilter c.filter = false) := by
  have hfilters : d.filterCount c.filter =
      d.removed c + d.content.occurrences.countP (·.isInnerFilter c.filter) := by
    rw [removed_eq]
    exact d.content.filterCount_eq_add c.filter
  refine ⟨d.content.filterCount_withoutFilters_self c.filter, ?_, hfilters, ?_⟩
  · rw [removed_eq]
    exact d.content.removedCount_eq_countP rfl
  · rw [hfilters, Nat.left_eq_add, List.countP_eq_zero]
    simp [Xml.Occurrence.isInnerFilter]

/-- A filter in a filter of the same name is gone as well, but is not told. -/
theorem removed_ne :
    let d : Document := ⟨[], .element "activity" [("block", "true")] (.element "component-filter"
      [("name", "p/A")] (.ofFilter "p/A") .nil) .nil⟩
    parse ("<rules><activity block=\"true\"><component-filter name=\"p/A\">" ++
        "<component-filter name=\"p/A\"/></component-filter></activity></rules>") = .ok d ∧
      d.filterCount "p/A" = 2 ∧ (d.withoutFilters "p/A").filterCount "p/A" = 0 ∧
      d.removed (.removeFilters "p/A") = 1 ∧ ∀ tag, d.removed (.block tag "p/A") = 1 := by
  intro d
  have hparse : parse ("<rules><activity block=\"true\"><component-filter name=\"p/A\">" ++
      "<component-filter name=\"p/A\"/></component-filter></activity></rules>") = .ok d := by
    decide +kernel
  have hcount : d.filterCount "p/A" = 2 := by decide
  have hleft : (d.withoutFilters "p/A").filterCount "p/A" = 0 := by decide
  have hremoved : d.removedCount "p/A" = 1 := by decide
  exact ⟨hparse, hcount, hleft, hremoved, fun _ => hremoved⟩

end Document
end IntentFirewall
