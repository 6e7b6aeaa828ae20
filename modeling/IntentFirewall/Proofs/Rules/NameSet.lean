import IntentFirewall.Rules.RuleSet

/-!
# Name sets

Lists of names that are kept as ascending lists are sets: they are equal if they have the same
members (`NameSet.eq_of_mem_iff`), so that the set of a list does not depend on the order of the
list (`NameSet.ofList_concat`), and leaving names out of the list leaves them out of the set
(`NameSet.ofList_filter`).
-/

namespace IntentFirewall.NameSet

variable {m n : String} {s t : NameSet}

/-- The names of a set are strictly ascending. -/
def IsAscending (s : NameSet) : Prop := s.Pairwise (· < ·)

/-- A set with one more name has that name and those of the set. -/
@[simp]
theorem mem_insert : m ∈ insert n s ↔ m = n ∨ m ∈ s := by
  induction s with
  | nil => simp [insert]
  | cons k rest ih =>
    rw [insert]
    split
    · simp
    · split
      next hn => simp [hn]
      · rw [List.mem_cons, ih, List.mem_cons, or_left_comm]

/-- The set of a list has the names of the list. -/
@[simp]
theorem mem_ofList {names : List String} : m ∈ ofList names ↔ m ∈ names := by
  induction names with
  | nil => simp [ofList]
  | cons n rest ih =>
    rw [ofList, List.foldr_cons, mem_insert, ← ofList, ih, List.mem_cons]

/-- A name is inserted at its place. -/
theorem IsAscending.insert (h : IsAscending s) (n : String) : IsAscending (insert n s) := by
  induction s with
  | nil => exact List.pairwise_singleton _ n
  | cons k rest ih =>
    obtain ⟨hk, hrest⟩ := List.pairwise_cons.1 h
    rw [NameSet.insert]
    split
    next hn =>
      refine List.pairwise_cons.2 ⟨fun m hm => ?_, h⟩
      rcases List.mem_cons.1 hm with rfl | hm
      · exact hn
      · exact String.lt_trans hn (hk m hm)
    next hn =>
      split
      · exact h
      next hne =>
        -- The name comes behind `k`, since the order is a linear one.
        have hkn : k < n :=
          String.not_le.1 fun hle => hne (String.le_antisymm hle (String.not_lt.1 hn))
        refine List.pairwise_cons.2 ⟨fun m hm => ?_, ih hrest⟩
        rcases mem_insert.1 hm with rfl | hm
        · exact hkn
        · exact hk m hm

/-- The set of a list is ascending. -/
theorem isAscending_ofList (names : List String) : IsAscending (ofList names) := by
  induction names with
  | nil => exact List.Pairwise.nil
  | cons n rest ih => exact ih.insert n

theorem IsAscending.nodup (h : IsAscending s) : s.Nodup := by
  refine List.Pairwise.imp (fun {a b} hlt => ?_) h
  rintro rfl
  exact String.lt_irrefl a hlt

theorem IsAscending.filter (h : IsAscending s) (p : String → Bool) : IsAscending (s.filter p) :=
  List.Pairwise.filter p h

/-- Sets with the same names are equal. -/
theorem eq_of_mem_iff (hs : IsAscending s) (ht : IsAscending t) (h : ∀ m, m ∈ s ↔ m ∈ t) :
    s = t := by
  refine List.Perm.eq_of_pairwise (fun a b _ _ hab hba => ?_) (show s.Pairwise (· < ·) from hs) ht
    ((List.perm_ext_iff_of_nodup hs.nodup ht.nodup).2 h)
  exact absurd hba (String.lt_asymm hab)

/-- The names that are left out of a list are left out of its set. -/
theorem ofList_filter (p : String → Bool) (names : List String) :
    ofList (names.filter p) = (ofList names).filter p :=
  eq_of_mem_iff (isAscending_ofList _) ((isAscending_ofList names).filter p) fun m => by
    simp

/-- A name at the end of a list is one more name in its set. -/
theorem ofList_concat (names : List String) (n : String) :
    ofList (names ++ [n]) = insert n (ofList names) :=
  eq_of_mem_iff (isAscending_ofList _) ((isAscending_ofList names).insert n) fun m => by
    simp [or_comm]

end IntentFirewall.NameSet
