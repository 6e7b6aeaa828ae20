import IntentFirewall.Proofs.Text.Substring
import IntentFirewall.Proofs.Text.Utf8
import IntentFirewall.Signature.Database
import Mathlib.Data.List.Basic

/-!
# The fragment that decides

A class name belongs to the signature that declares the longest fragment in it. The index of a
database drops the fragments that were declared before and sorts the others, and the first of them
that the class name has is looked for. This comes to the same as to compare all fragments with each
other, by their length and then by the places where they are declared.

## Main definitions

* `Declaration`: a fragment with its place and that of its signature.
* `Declaration.Hits`, `Declaration.Outranks`: it is declared there and occurs in a class name; it
  decides if another one occurs there as well.

## Main results

* `pairwise_mergeSort_stable`: values that sorting holds for equal keep their order.
* `SignatureDatabase.lookup_ofList`: the signature of a class name is that of the fragment in it
  that outranks all others.
-/

namespace IntentFirewall

/-! ## Sorting and searching -/

section Lists

variable {α : Type} {R : α → α → Prop} {l : List α}

/-- The numbers of values are increasing. -/
theorem pairwise_zipIdx (l : List α) (start : Nat) :
    (l.zipIdx start).Pairwise fun x y => x.2 < y.2 := by
  have hnumbers := List.pairwise_lt_range' (s := start) (n := l.length) 1
  rwa [← List.zipIdx_map_snd, List.pairwise_map] at hnumbers

/-- Values that sorting holds for equal keep their order. -/
theorem pairwise_mergeSort_stable {le : α → α → Bool}
    (htrans : ∀ a b c, le a b = true → le b c = true → le a c = true)
    (htotal : ∀ a b, (le a b || le b a) = true) (h : l.Pairwise R) :
    (l.mergeSort le).Pairwise fun a b => le a b = true ∧ (le b a = true → R a b) := by
  -- The values are numbered, and the numbers tell which of two equal ones stood in front.
  rw [← List.mergeSort_zipIdx, List.pairwise_map]
  have hsorted := List.pairwise_mergeSort (List.zipIdxLE_trans htrans) (List.zipIdxLE_total htotal)
    l.zipIdx
  have hnumbers : (l.zipIdx.mergeSort (List.zipIdxLE le)).Pairwise fun x y => x.2 ≠ y.2 :=
    ((pairwise_zipIdx l 0).imp Nat.ne_of_lt).perm (List.mergeSort_perm _ _).symm Ne.symm
  refine (hsorted.and hnumbers).imp_of_mem fun {x y} hx hy hxy => ?_
  obtain ⟨hle, hne⟩ := hxy
  rw [List.mem_mergeSort, List.mem_zipIdx_iff_getElem?, List.getElem?_eq_some_iff] at hx hy
  obtain ⟨hxl, hx⟩ := hx
  obtain ⟨hyl, hy⟩ := hy
  rw [List.zipIdxLE] at hle
  split at hle
  next hxy =>
    refine ⟨hxy, ?_⟩
    intro hyx
    rw [if_pos hyx] at hle
    have hlt : x.2 < y.2 := Nat.lt_of_le_of_ne (of_decide_eq_true hle) hne
    rw [← hx, ← hy]
    exact List.pairwise_iff_getElem.1 h _ _ hxl hyl hlt
  · exact absurd hle Bool.false_ne_true

/-- The first value with a property stands in front of all others with it. -/
theorem eq_or_of_find?_eq_some {p : α → Bool} {a b : α} (h : l.Pairwise R)
    (ha : l.find? p = some a) (hb : b ∈ l) (hpb : p b = true) : b = a ∨ R a b := by
  obtain ⟨-, front, behind, rfl, hfront⟩ := List.find?_eq_some_iff_append.1 ha
  rcases List.mem_append.1 hb with hb | hb
  · have hnot := hfront b hb
    simp [hpb] at hnot
  · have hbehind := (List.pairwise_append.1 h).2.1
    rcases List.mem_cons.1 hb with rfl | hb
    · exact .inl rfl
    · exact .inr ((List.pairwise_cons.1 hbehind).1 b hb)

end Lists

/-! ## Fragments and where they are declared -/

/-- A fragment with its place and that of its signature. -/
structure Declaration where
  /-- The place of the signature in its list. -/
  owner : Nat
  /-- The place of the fragment in the signature. -/
  position : Nat
  /-- The fragment. -/
  pattern : String
  /-- The signature. -/
  signature : Signature

namespace Declaration

/-- A declaration as it stands in an index. -/
def indexed (d : Declaration) : IndexedPattern := ⟨d.pattern, d.owner, d.signature⟩

/-- A declaration stands in front of another one. -/
def Precedes (d e : Declaration) : Prop :=
  d.owner < e.owner ∨ d.owner = e.owner ∧ d.position < e.position

/-- A fragment of one of the signatures occurs in a class name. -/
structure Hits (d : Declaration) (signatures : List Signature) (className : String) : Prop where
  /-- The signature stands at its place. -/
  signature_eq : signatures[d.owner]? = some d.signature
  /-- The fragment stands at its place in the signature. -/
  pattern_eq : d.signature.patterns[d.position]? = some d.pattern
  /-- It occurs in the class name. -/
  occurs : d.pattern.toList <:+: className.toList

/-- A declaration decides in spite of another one: it is longer in bytes, or as long and does not
stand behind it. -/
def Outranks (d e : Declaration) : Prop :=
  (Utf8.encodeString e.pattern).length < (Utf8.encodeString d.pattern).length ∨
    (Utf8.encodeString e.pattern).length = (Utf8.encodeString d.pattern).length ∧
      (d.owner < e.owner ∨ d.owner = e.owner ∧ d.position ≤ e.position)

variable {d e f : Declaration}

theorem Outranks.trans (hde : d.Outranks e) (hef : e.Outranks f) : d.Outranks f := by
  unfold Outranks at *
  omega

/-- Of one fragment, the declaration that stands in front decides. -/
theorem outranks_of_precedes (hpattern : d.pattern = e.pattern) (h : d = e ∨ d.Precedes e) :
    d.Outranks e := by
  rcases h with rfl | h
  · exact .inr ⟨rfl, .inr ⟨rfl, Nat.le_refl _⟩⟩
  · exact .inr ⟨hpattern ▸ rfl, h.imp_right fun h => ⟨h.1, Nat.le_of_lt h.2⟩⟩

/-- Declarations that outrank each other are those of one signature. -/
theorem Outranks.owner_eq (hde : d.Outranks e) (hed : e.Outranks d) : d.owner = e.owner := by
  unfold Outranks at *
  omega

end Declaration

namespace SignatureDatabase

variable {signatures : List Signature} {className : String} {d e : Declaration} {s : Signature}

/-- The declarations of signatures in their order. -/
def declared (signatures : List Signature) : List Declaration :=
  signatures.zipIdx.flatMap fun (s, i) => s.patterns.zipIdx.map fun (p, j) => ⟨i, j, p, s⟩

theorem mem_declared_iff : d ∈ declared signatures ↔
    signatures[d.owner]? = some d.signature ∧
      d.signature.patterns[d.position]? = some d.pattern := by
  simp only [declared, List.mem_flatMap, List.mem_map]
  constructor
  · rintro ⟨⟨s, i⟩, hs, ⟨p, j⟩, hp, rfl⟩
    exact ⟨List.mem_zipIdx_iff_getElem?.1 hs, List.mem_zipIdx_iff_getElem?.1 hp⟩
  · rintro ⟨hs, hp⟩
    exact ⟨(d.signature, d.owner), List.mem_zipIdx_iff_getElem?.2 hs, (d.pattern, d.position),
      List.mem_zipIdx_iff_getElem?.2 hp, rfl⟩

/-- What hits a class name are the declarations whose fragments occur in it. -/
theorem hits_iff : d.Hits signatures className ↔
    d ∈ declared signatures ∧ Text.occursIn d.pattern className = true := by
  rw [mem_declared_iff, Text.occursIn_iff, and_assoc]
  constructor
  · intro h
    exact ⟨h.signature_eq, h.pattern_eq, h.occurs⟩
  · intro h
    exact ⟨h.1, h.2.1, h.2.2⟩

/-- Declarations stand in order. -/
theorem pairwise_declared (signatures : List Signature) :
    (declared signatures).Pairwise Declaration.Precedes := by
  refine List.pairwise_flatMap.2 ⟨fun x _ => ?_, (pairwise_zipIdx signatures 0).imp ?_⟩
  · refine List.pairwise_map.2 ((pairwise_zipIdx x.1.patterns 0).imp ?_)
    intro y z hlt
    exact .inr ⟨rfl, hlt⟩
  · intro x y hlt d hd e he
    obtain ⟨_, -, rfl⟩ := List.mem_map.1 hd
    obtain ⟨_, -, rfl⟩ := List.mem_map.1 he
    exact .inl hlt

/-- The index of a database is made from the declarations. -/
theorem map_indexed_declared (signatures : List Signature) :
    (declared signatures).map Declaration.indexed = declarations 0 signatures := by
  have hfrom (start : Nat) : declarations start signatures =
      (signatures.zipIdx start).flatMap fun (s, i) => s.patterns.map (⟨·, i, s⟩) := by
    induction signatures generalizing start with
    | nil => rfl
    | cons s rest ih => rw [declarations, ih, List.zipIdx_cons, List.flatMap_cons]
  have hpatterns (s : Signature) (i : Nat) :
      (s.patterns.zipIdx.map fun (p, j) => Declaration.mk i j p s).map Declaration.indexed =
        s.patterns.map (IndexedPattern.mk · i s) := by
    conv_rhs => rw [← List.zipIdx_map_fst 0 s.patterns, List.map_map]
    rw [List.map_map]
    rfl
  rw [hfrom, declared, List.map_flatMap]
  simp only [hpatterns]

/-- The declarations that an index is made of, in its order. -/
def ranked (signatures : List Signature) : List Declaration :=
  (distinctBy Declaration.pattern [] (declared signatures)).mergeSort
    fun d e => precedes d.indexed e.indexed

theorem index_ofList (signatures : List Signature) :
    (ofList signatures).index = (ranked signatures).map Declaration.indexed := by
  rw [ranked, List.map_mergeSort (s := precedes) (fun _ _ _ _ => rfl), ofList, firstDeclared,
    ← map_indexed_declared, distinctBy_map]
  rfl

theorem lookup_ofList_eq (signatures : List Signature) (className : String) :
    (ofList signatures).lookup className =
      ((ranked signatures).find? fun d => Text.occursIn d.pattern className).map (·.signature) := by
  rw [lookup, index_ofList, List.find?_map, Option.map_map]
  rfl

theorem mem_of_mem_ranked (h : d ∈ ranked signatures) : d ∈ declared signatures :=
  (mem_of_mem_distinctBy (List.mem_mergeSort.1 h)).1

/-- Every fragment is in the index with the first of its declarations. -/
theorem exists_ranked (h : e ∈ declared signatures) :
    ∃ f ∈ ranked signatures, f.pattern = e.pattern ∧ (f = e ∨ f.Precedes e) := by
  obtain ⟨f, hf, hpattern⟩ : ∃ f ∈ distinctBy Declaration.pattern [] (declared signatures),
      f.pattern = e.pattern := exists_mem_distinctBy h List.not_mem_nil
  have hfirst := eq_or_of_find?_eq_some (pairwise_declared signatures) (mem_distinctBy_iff.1 hf).2 h
    (decide_eq_true hpattern.symm)
  exact ⟨f, List.mem_mergeSort.2 hf, hpattern, hfirst.imp_left Eq.symm⟩

/-- Whether a declaration is looked for before another is a matter of their lengths. -/
theorem precedes_indexed_iff : precedes d.indexed e.indexed = true ↔
    (Utf8.encodeString e.pattern).length ≤ (Utf8.encodeString d.pattern).length := by
  rw [Utf8.encodeString, Utf8.encodeString, Utf8.length_encode, Utf8.length_encode]
  exact decide_eq_true_iff

/-- The declarations of an index stand in the order in which they decide. -/
theorem pairwise_ranked (signatures : List Signature) :
    (ranked signatures).Pairwise Declaration.Outranks := by
  have hfirst := (pairwise_declared signatures).sublist
    (distinctBy_sublist Declaration.pattern [] (declared signatures))
  refine (pairwise_mergeSort_stable ?_ ?_ hfirst).imp ?_
  · intro a b c hab hbc
    rw [precedes_indexed_iff] at hab hbc ⊢
    exact Nat.le_trans hbc hab
  · intro a b
    rw [Bool.or_eq_true, precedes_indexed_iff, precedes_indexed_iff]
    exact Nat.le_total _ _
  · intro d e hde
    obtain ⟨hle, htie⟩ := hde
    rw [precedes_indexed_iff] at hle htie
    rcases Nat.lt_or_eq_of_le hle with hlt | heq
    · exact .inl hlt
    · have hprecedes := htie (Nat.le_of_eq heq.symm)
      exact .inr ⟨heq, hprecedes.imp_right fun h => ⟨h.1, Nat.le_of_lt h.2⟩⟩

/-- What a class name is looked up by outranks all other fragments in it. -/
theorem exists_of_lookup (h : (ofList signatures).lookup className = some s) :
    ∃ d : Declaration, d.Hits signatures className ∧
      (∀ e : Declaration, e.Hits signatures className → d.Outranks e) ∧ d.signature = s := by
  rw [lookup_ofList_eq] at h
  obtain ⟨d, hd, rfl⟩ := Option.map_eq_some_iff.1 h
  have hoccurs : Text.occursIn d.pattern className = true := by simpa using List.find?_some hd
  have hdeclared := mem_of_mem_ranked (List.mem_of_find?_eq_some hd)
  refine ⟨d, hits_iff.2 ⟨hdeclared, hoccurs⟩, ?_, rfl⟩
  intro e he
  obtain ⟨he, heoccurs⟩ := hits_iff.1 he
  -- The index has the first declaration of the same fragment, and `d` outranks that one.
  obtain ⟨f, hranked, hpattern, hfirst⟩ := exists_ranked he
  have hfe : f.Outranks e := Declaration.outranks_of_precedes hpattern hfirst
  rw [← hpattern] at heoccurs
  rcases eq_or_of_find?_eq_some (pairwise_ranked signatures) hd hranked heoccurs with rfl | hdf
  · exact hfe
  · exact hdf.trans hfe

/-- Nothing is found exactly if no fragment occurs in the class name. -/
theorem lookup_ofList_eq_none_iff : (ofList signatures).lookup className = none ↔
    ∀ d : Declaration, ¬d.Hits signatures className := by
  rw [lookup_ofList_eq, Option.map_eq_none_iff, List.find?_eq_none]
  constructor
  · intro h d hd
    obtain ⟨hdeclared, hoccurs⟩ := hits_iff.1 hd
    obtain ⟨f, hranked, hpattern, -⟩ := exists_ranked hdeclared
    rw [← hpattern] at hoccurs
    exact h f hranked hoccurs
  · intro h d hd hoccurs
    exact h d (hits_iff.2 ⟨mem_of_mem_ranked hd, hoccurs⟩)

/-- Nothing is found exactly if no signature has a fragment that occurs in the class name. -/
theorem lookup_eq_none_iff : (ofList signatures).lookup className = none ↔
    ∀ s ∈ signatures, ∀ p ∈ s.patterns, ¬p.toList <:+: className.toList := by
  rw [lookup_ofList_eq_none_iff]
  constructor
  · intro h s hs p hp hoccurs
    obtain ⟨i, hi⟩ := List.mem_iff_getElem?.1 hs
    obtain ⟨j, hj⟩ := List.mem_iff_getElem?.1 hp
    exact h ⟨i, j, p, s⟩ ⟨hi, hj, hoccurs⟩
  · intro h d hd
    have hs := List.mem_of_getElem? hd.signature_eq
    have hp := List.mem_of_getElem? hd.pattern_eq
    exact h _ hs _ hp hd.occurs

/-- A class name belongs to no signature exactly if none of their fragments occurs in it, and else
to the signature of the fragment that outranks all others in it. -/
theorem lookup_ofList (signatures : List Signature) (className : String) :
    ((ofList signatures).lookup className = none ↔
      ∀ s ∈ signatures, ∀ p ∈ s.patterns, ¬p.toList <:+: className.toList) ∧
    ∀ s, (ofList signatures).lookup className = some s ↔
      ∃ d : Declaration, d.Hits signatures className ∧
        (∀ e : Declaration, e.Hits signatures className → d.Outranks e) ∧ d.signature = s := by
  refine ⟨lookup_eq_none_iff, fun s => ⟨exists_of_lookup, ?_⟩⟩
  rintro ⟨d, hd, houtranks, rfl⟩
  cases hlookup : (ofList signatures).lookup className with
  | none => exact absurd hd (lookup_ofList_eq_none_iff.1 hlookup d)
  | some s =>
    -- What is found outranks `d` as well, so that both are of one signature.
    obtain ⟨e, he, houtranks', rfl⟩ := exists_of_lookup hlookup
    have howner := (houtranks e he).owner_eq (houtranks' d hd)
    rw [← he.signature_eq, ← hd.signature_eq, howner]

end SignatureDatabase
end IntentFirewall
