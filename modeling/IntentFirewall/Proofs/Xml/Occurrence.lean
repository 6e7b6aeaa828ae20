import IntentFirewall.Xml.Content
import Mathlib.Data.List.TakeWhile

/-!
# Nodes and their places

A tree as the list of its nodes in document order, in which every node is told together with the
elements around it. Statements about what happens to nodes at any depth are statements about such
lists: nothing else is to be said of a tree, since it is determined by the list.

## Main definitions

* `Node`, `Occurrence`: a node, and a node with the elements that enclose it.
* `Content.occurrences`: the nodes of a content at any depth.

## Main results

* `Content.suffix_enclosing`: what lies in an element is enclosed by all that encloses the element.
* `Content.occurrences_injective`: contents with the same nodes at the same places are the same.
-/

namespace IntentFirewall.Xml

/-- A node without what is in it. -/
inductive Node
  /-- An element by its tag. -/
  | element (name : String) (attributes : Attributes)
  /-- A text. -/
  | text (text : String)
  /-- A comment. -/
  | comment (comment : String)
  deriving DecidableEq, Repr

/-- A node at its place in a tree. -/
structure Occurrence where
  /-- The node. -/
  node : Node
  /-- The elements that enclose it, the innermost one first. -/
  enclosing : List Node
  deriving DecidableEq, Repr

namespace Content

/-- The nodes of a content that some elements enclose, at any depth and in document order. -/
def occurrencesIn (enclosing : List Node) : Content → List Occurrence
  | nil => []
  | element name attributes children rest =>
    ⟨.element name attributes, enclosing⟩ ::
      (children.occurrencesIn (.element name attributes :: enclosing) ++
        rest.occurrencesIn enclosing)
  | text t rest => ⟨.text t, enclosing⟩ :: rest.occurrencesIn enclosing
  | comment t rest => ⟨.comment t, enclosing⟩ :: rest.occurrencesIn enclosing

/-- The nodes of a content, at any depth and in document order. -/
def occurrences (c : Content) : List Occurrence := c.occurrencesIn []

variable {c d : Content} {enclosing : List Node} {o : Occurrence}

/-- Every node is enclosed by the elements around the content. -/
theorem suffix_enclosing (h : o ∈ c.occurrencesIn enclosing) : enclosing <:+ o.enclosing := by
  induction c generalizing enclosing with
  | nil => exact absurd h List.not_mem_nil
  | element name attributes children rest ihChildren ihRest =>
    rcases List.mem_cons.1 h with rfl | h
    · exact List.suffix_rfl
    · rcases List.mem_append.1 h with hchild | hrest
      · exact (List.suffix_cons _ _).trans (ihChildren hchild)
      · exact ihRest hrest
  | text t rest ih =>
    rcases List.mem_cons.1 h with rfl | h
    · exact List.suffix_rfl
    · exact ih h
  | comment t rest ih =>
    rcases List.mem_cons.1 h with rfl | h
    · exact List.suffix_rfl
    · exact ih h

/-! ## Trees by their nodes -/

/-- Whether a node lies deeper than directly in some elements. -/
def isBelow (enclosing : List Node) (o : Occurrence) : Bool :=
  enclosing.length < o.enclosing.length

/-- The nodes in an element lie deeper than those beside it. -/
theorem isBelow_of_mem {n : Node} (h : o ∈ c.occurrencesIn (n :: enclosing)) :
    isBelow enclosing o = true := by
  have hlength := (suffix_enclosing h).length_le
  exact decide_eq_true (Nat.lt_of_lt_of_le (Nat.lt_succ_self _) hlength)

/-- The first node of a content does not lie deeper than the others. -/
theorem takeWhile_isBelow (c : Content) (enclosing : List Node) :
    (c.occurrencesIn enclosing).takeWhile (isBelow enclosing) = [] := by
  have hfirst (n : Node) : ¬isBelow enclosing ⟨n, enclosing⟩ = true := by simp [isBelow]
  cases c with
  | nil => rfl
  | element name attributes children rest => exact List.takeWhile_cons_of_neg (hfirst _)
  | text t rest => exact List.takeWhile_cons_of_neg (hfirst _)
  | comment t rest => exact List.takeWhile_cons_of_neg (hfirst _)

/-- The nodes in an element are told from those behind it by their depth. -/
theorem takeWhile_isBelow_append (n : Node) (children rest : Content) (enclosing : List Node) :
    (children.occurrencesIn (n :: enclosing) ++ rest.occurrencesIn enclosing).takeWhile
      (isBelow enclosing) = children.occurrencesIn (n :: enclosing) := by
  rw [List.takeWhile_append_of_pos fun o ho => isBelow_of_mem ho, takeWhile_isBelow,
    List.append_nil]

/-- Contents with the same nodes at the same places are the same. -/
theorem eq_of_occurrencesIn_eq (h : c.occurrencesIn enclosing = d.occurrencesIn enclosing) :
    c = d := by
  induction c generalizing d enclosing with
  | nil => cases d <;> simp_all [occurrencesIn]
  | element name attributes children rest ihChildren ihRest =>
    cases d with
    | element name' attributes' children' rest' =>
      obtain ⟨hnode, hbehind⟩ := List.cons.inj h
      obtain ⟨rfl, rfl⟩ : name = name' ∧ attributes = attributes' := by simpa using hnode
      have hchildren := congrArg (List.takeWhile (isBelow enclosing)) hbehind
      rw [takeWhile_isBelow_append, takeWhile_isBelow_append] at hchildren
      rw [hchildren] at hbehind
      have hrest := List.append_cancel_left hbehind
      rw [ihChildren hchildren, ihRest hrest]
    | nil => simp [occurrencesIn] at h
    | text t rest' => simp [occurrencesIn] at h
    | comment t rest' => simp [occurrencesIn] at h
  | text t rest ih =>
    cases d with
    | text t' rest' =>
      obtain ⟨hnode, hbehind⟩ := List.cons.inj h
      obtain rfl : t = t' := by simpa using hnode
      rw [ih hbehind]
    | nil => simp [occurrencesIn] at h
    | element name attributes children rest' => simp [occurrencesIn] at h
    | comment t' rest' => simp [occurrencesIn] at h
  | comment t rest ih =>
    cases d with
    | comment t' rest' =>
      obtain ⟨hnode, hbehind⟩ := List.cons.inj h
      obtain rfl : t = t' := by simpa using hnode
      rw [ih hbehind]
    | nil => simp [occurrencesIn] at h
    | element name attributes children rest' => simp [occurrencesIn] at h
    | text t' rest' => simp [occurrencesIn] at h

theorem occurrences_injective (h : c.occurrences = d.occurrences) : c = d :=
  eq_of_occurrencesIn_eq h

end Content
end IntentFirewall.Xml
