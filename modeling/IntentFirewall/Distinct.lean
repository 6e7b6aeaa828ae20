/-!
# Values with distinct keys

`distinctBy key seen values` keeps a value if no value before it, and none of those seen before, has
its key. So the first value with a key stands for all others.

* `mem_of_mem_distinctBy`: nothing is added, and nothing that was seen before comes again.
* `mem_distinctBy_iff`: the values that are kept are the first ones with their keys.
* `exists_mem_distinctBy`: every key that was not seen before is kept.
* `nodup_distinctBy`: no key comes twice. `distinctBy_eq_self`: otherwise all values are kept.
* `pairwise_idxOf_distinctBy`: values that are their own keys stand in the order in which they come.
-/

namespace IntentFirewall

variable {α κ : Type} [DecidableEq κ]

/-- The values of a list whose key neither a value before them nor one seen before has. -/
def distinctBy (key : α → κ) (seen : List κ) : List α → List α
  | [] => []
  | a :: rest =>
    if key a ∈ seen then distinctBy key seen rest else a :: distinctBy key (key a :: seen) rest

/-- What is kept stands in the list, and its key was not seen before. -/
theorem mem_of_mem_distinctBy {key : α → κ} {seen : List κ} {values : List α} {a : α}
    (h : a ∈ distinctBy key seen values) : a ∈ values ∧ key a ∉ seen := by
  induction values generalizing seen with
  | nil => simp [distinctBy] at h
  | cons b rest ih =>
    rw [distinctBy] at h
    split at h
    · have hrest := ih h
      exact ⟨List.mem_cons_of_mem b hrest.1, hrest.2⟩
    next hb =>
      rcases List.mem_cons.1 h with rfl | h
      · exact ⟨List.mem_cons_self, hb⟩
      · have hrest := ih h
        exact ⟨List.mem_cons_of_mem b hrest.1, fun hseen => hrest.2 (List.mem_cons_of_mem _ hseen)⟩

/-- The values that are kept are the first ones with their keys. -/
theorem mem_distinctBy_iff {key : α → κ} {seen : List κ} {values : List α} {a : α} :
    a ∈ distinctBy key seen values ↔
      key a ∉ seen ∧ values.find? (fun b => key b = key a) = some a := by
  induction values generalizing seen with
  | nil => simp [distinctBy]
  | cons c rest ih =>
    rw [distinctBy, List.find?_cons]
    by_cases hkey : key c = key a
    · rw [decide_eq_true hkey]
      split
      next hc => simp [ih, ← hkey, hc]
      next hc => simp [ih, ← hkey, hc, eq_comm]
    · rw [decide_eq_false hkey]
      split
      · exact ih
      · have hca : a ≠ c := fun h => hkey (h ▸ rfl)
        simp [ih, hca, Ne.symm hkey]

/-- A key that was not seen before is the key of a value that is kept. -/
theorem exists_mem_distinctBy {key : α → κ} {seen : List κ} {values : List α} {a : α}
    (ha : a ∈ values) (hseen : key a ∉ seen) :
    ∃ b ∈ distinctBy key seen values, key b = key a := by
  induction values generalizing seen with
  | nil => simp at ha
  | cons c rest ih =>
    rw [distinctBy]
    split
    next hc =>
      rcases List.mem_cons.1 ha with rfl | ha
      · exact absurd hc hseen
      · exact ih ha hseen
    · by_cases hkey : key a = key c
      · exact ⟨c, List.mem_cons_self, hkey.symm⟩
      · have hrest : a ∈ rest := by
          rcases List.mem_cons.1 ha with rfl | ha
          · exact absurd rfl hkey
          · exact ha
        have hseen' : key a ∉ key c :: seen := by simp [hkey, hseen]
        obtain ⟨b, hb, hab⟩ := ih hrest hseen'
        exact ⟨b, List.mem_cons_of_mem c hb, hab⟩

theorem distinctBy_sublist (key : α → κ) (seen : List κ) (values : List α) :
    (distinctBy key seen values).Sublist values := by
  induction values generalizing seen with
  | nil => exact List.Sublist.slnil
  | cons a rest ih =>
    rw [distinctBy]
    split
    · exact (ih seen).cons a
    · exact (ih _).cons_cons a

/-- What is kept of the images of values are the images of what is kept of the values. -/
theorem distinctBy_map {β : Type} (key : β → κ) (f : α → β) (seen : List κ) (values : List α) :
    distinctBy key seen (values.map f) = (distinctBy (fun a => key (f a)) seen values).map f := by
  induction values generalizing seen with
  | nil => rfl
  | cons a rest ih =>
    rw [List.map_cons, distinctBy, distinctBy]
    split
    · exact ih seen
    · rw [List.map_cons, ih]

/-- No key comes twice. -/
theorem nodup_distinctBy (key : α → κ) (seen : List κ) (values : List α) :
    ((distinctBy key seen values).map key).Nodup := by
  induction values generalizing seen with
  | nil => simp [distinctBy]
  | cons a rest ih =>
    rw [distinctBy]
    split
    · exact ih seen
    · rw [List.map_cons, List.nodup_cons]
      refine ⟨fun hmem => ?_, ih _⟩
      obtain ⟨b, hb, hkey⟩ := List.mem_map.1 hmem
      exact (mem_of_mem_distinctBy hb).2 (hkey ▸ List.mem_cons_self)

/-- Values with keys of their own are all kept. -/
theorem distinctBy_eq_self {key : α → κ} {seen : List κ} {values : List α}
    (hkeys : (values.map key).Nodup) (hseen : ∀ a ∈ values, key a ∉ seen) :
    distinctBy key seen values = values := by
  induction values generalizing seen with
  | nil => rfl
  | cons a rest ih =>
    rw [List.map_cons, List.nodup_cons] at hkeys
    rw [List.forall_mem_cons] at hseen
    have hrest : ∀ b ∈ rest, key b ∉ key a :: seen := by
      intro b hb hmem
      rcases List.mem_cons.1 hmem with heq | hmem
      · exact hkeys.1 (List.mem_map.2 ⟨b, hb, heq⟩)
      · exact hseen.2 b hb hmem
    rw [distinctBy, if_neg hseen.1, ih hkeys.2 hrest]

/-- Values that are kept because they come for the first time stand in the order in which they do
so, even among values that do not count. -/
theorem pairwise_idxOf_distinctBy [DecidableEq α] (counts : α → Bool) (seen values : List α) :
    (distinctBy (fun a => a) seen (values.filter counts)).Pairwise
      fun a b => values.idxOf a < values.idxOf b := by
  induction values generalizing seen with
  | nil => exact List.Pairwise.nil
  | cons a rest ih =>
    have hplace {b : α} (hne : b ≠ a) : (a :: rest).idxOf b = rest.idxOf b + 1 := by
      rw [List.idxOf_cons, beq_eq_false_iff_ne.2 hne.symm, cond_false]
    -- Behind the first value, every place is one further on.
    have hbehind {kept : List α} (hne : ∀ b ∈ kept, b ≠ a)
        (h : kept.Pairwise fun b c => rest.idxOf b < rest.idxOf c) :
        kept.Pairwise fun b c => (a :: rest).idxOf b < (a :: rest).idxOf c := by
      refine h.imp_of_mem fun {b c} hb hc hlt => ?_
      rw [hplace (hne b hb), hplace (hne c hc)]
      exact Nat.succ_lt_succ hlt
    by_cases ha : counts a = true
    · rw [List.filter_cons_of_pos ha, distinctBy]
      split
      next hseen =>
        exact hbehind (fun b hb heq => (mem_of_mem_distinctBy hb).2 (heq ▸ hseen)) (ih seen)
      next =>
        have hne : ∀ b ∈ distinctBy (fun a => a) (a :: seen) (rest.filter counts), b ≠ a :=
          fun b hb heq => (mem_of_mem_distinctBy hb).2 (heq ▸ List.mem_cons_self)
        refine List.pairwise_cons.2 ⟨fun b hb => ?_, hbehind hne (ih _)⟩
        rw [List.idxOf_cons_self, hplace (hne b hb)]
        exact Nat.succ_pos _
    · rw [List.filter_cons_of_neg ha]
      refine hbehind (fun b hb heq => ?_) (ih seen)
      exact ha (heq ▸ (List.mem_filter.1 (mem_of_mem_distinctBy hb).1).2)

end IntentFirewall
