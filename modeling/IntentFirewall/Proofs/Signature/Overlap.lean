import IntentFirewall.Proofs.Signature.Lookup
import Mathlib.Data.List.Nodup

/-!
# Fragments in fragments

A fragment may occur in a fragment of another signature. Every class name that has the longer one
then has the shorter one as well, and the longer one decides. The overlaps of a database tell these
pairs.

For each fragment of the index, the search for overlaps looks at those behind it alone. Nothing is
missed by that: the index goes from longer fragments to shorter ones, and a fragment that occurs in
another one is shorter.

## Main definitions

* `IndexedPattern.IsOwned`: a fragment with the first signature that declares it.
* `SignatureDatabase.IsOverlap`: what is to be told about two fragments, stated without the index.
* `SignatureDatabase.deciding`: the fragment by which a class name is looked up.

## Main results

* `SignatureDatabase.mem_index_ofList_iff`: the index has the fragments with their owners.
* `SignatureDatabase.mem_overlapsIn_iff`, `SignatureDatabase.nodup_overlapsIn`: the search finds the
  pairs of fragments in which the shorter one stands behind the longer one, each once.
* `SignatureDatabase.overlaps_ofList`: the overlaps of signatures are found, and no class name with
  the longer fragment is looked up by the shorter one.
-/

namespace IntentFirewall

/-! ## Fragments and their owners -/

/-- A fragment belongs to the signature at a place, which is the first one that declares it. -/
structure IndexedPattern.IsOwned (p : IndexedPattern) (signatures : List Signature) : Prop where
  /-- The signature stands at its place. -/
  signature_eq : signatures[p.owner]? = some p.signature
  /-- It declares the fragment. -/
  mem_patterns : p.pattern ∈ p.signature.patterns
  /-- No signature in front of it does. -/
  first : ∀ i s, signatures[i]? = some s → p.pattern ∈ s.patterns → p.owner ≤ i

/-- A fragment has one owner. -/
theorem IndexedPattern.IsOwned.unique {signatures : List Signature} {p q : IndexedPattern}
    (hp : p.IsOwned signatures) (hq : q.IsOwned signatures) (h : p.pattern = q.pattern) :
    p = q := by
  -- Neither of the owners stands behind the other one.
  have howner : p.owner = q.owner := by
    apply Nat.le_antisymm
    · exact hp.first _ _ hq.signature_eq (h ▸ hq.mem_patterns)
    · exact hq.first _ _ hp.signature_eq (h ▸ hp.mem_patterns)
  have hsignature : p.signature = q.signature := by
    have heq := hp.signature_eq
    rw [howner, hq.signature_eq] at heq
    exact (Option.some.inj heq).symm
  calc p = ⟨p.pattern, p.owner, p.signature⟩ := rfl
    _ = q := by rw [h, howner, hsignature]

namespace SignatureDatabase

variable {signatures : List Signature} {index : List IndexedPattern} {p q : IndexedPattern}
  {o : PatternOverlap} {className : String}

theorem nodup_pattern_ranked (signatures : List Signature) :
    ((ranked signatures).map Declaration.pattern).Nodup :=
  ((List.mergeSort_perm _ _).map _).nodup_iff.2 (nodup_distinctBy Declaration.pattern [] _)

/-- No fragment comes twice in the index. -/
theorem nodup_pattern_index (signatures : List Signature) :
    ((ofList signatures).index.map IndexedPattern.pattern).Nodup := by
  rw [index_ofList, List.map_map]
  exact nodup_pattern_ranked signatures

/-- A signature with a fragment declares it somewhere. -/
theorem exists_declared {i : Nat} {s : Signature} {pattern : String}
    (hs : signatures[i]? = some s) (hpattern : pattern ∈ s.patterns) :
    ∃ j, ⟨i, j, pattern, s⟩ ∈ declared signatures := by
  obtain ⟨j, hj⟩ := List.mem_iff_getElem?.1 hpattern
  exact ⟨j, mem_declared_iff.2 ⟨hs, hj⟩⟩

/-- A declaration in an index belongs to the first signature that declares its fragment. -/
theorem isOwned_indexed {d : Declaration} (h : d ∈ ranked signatures) :
    d.indexed.IsOwned signatures := by
  obtain ⟨hsignature, hpattern⟩ := mem_declared_iff.1 (mem_of_mem_ranked h)
  refine ⟨hsignature, List.mem_of_getElem? hpattern, ?_⟩
  intro i s hs hmem
  obtain ⟨j, he⟩ := exists_declared hs hmem
  obtain ⟨f, hf, hsame, hfirst⟩ := exists_ranked he
  -- There is one declaration of the fragment in the index, so the first one is `d`.
  obtain rfl : f = d := List.inj_on_of_nodup_map (nodup_pattern_ranked signatures) hf h hsame
  rcases hfirst with heq | hprecedes
  · exact Nat.le_of_eq (congrArg Declaration.owner heq)
  · exact hprecedes.elim Nat.le_of_lt fun h => Nat.le_of_eq h.1

/-- The index has each fragment with the first signature that declares it, and nothing else. -/
theorem mem_index_ofList_iff : p ∈ (ofList signatures).index ↔ p.IsOwned signatures := by
  rw [index_ofList, List.mem_map]
  constructor
  · rintro ⟨d, hd, rfl⟩
    exact isOwned_indexed hd
  · intro h
    obtain ⟨j, hdeclared⟩ := exists_declared h.signature_eq h.mem_patterns
    obtain ⟨f, hf, hpattern, -⟩ := exists_ranked hdeclared
    exact ⟨f, hf, (isOwned_indexed hf).unique h hpattern⟩

/-- The index goes from longer fragments to shorter ones. -/
theorem pairwise_index (signatures : List Signature) :
    (ofList signatures).index.Pairwise fun p q =>
      (Utf8.encodeString q.pattern).length ≤ (Utf8.encodeString p.pattern).length := by
  rw [index_ofList, List.pairwise_map]
  refine (pairwise_ranked signatures).imp ?_
  intro d e houtranks
  exact houtranks.elim Nat.le_of_lt fun h => Nat.le_of_eq h.1

/-- A shorter fragment stands behind a longer one. -/
theorem pair_sublist_index (hp : p ∈ (ofList signatures).index)
    (hq : q ∈ (ofList signatures).index)
    (hlt : (Utf8.encodeString q.pattern).length < (Utf8.encodeString p.pattern).length) :
    [p, q].Sublist (ofList signatures).index := by
  have hsorted := pairwise_index signatures
  obtain ⟨front, behind, hindex⟩ := List.append_of_mem hp
  rw [hindex] at hsorted hq ⊢
  rcases List.mem_append.1 hq with hfront | hbehind
  · -- In front of `p` there are only fragments that are at least as long.
    have hle := (List.pairwise_append.1 hsorted).2.2 q hfront p List.mem_cons_self
    exact absurd hle (Nat.not_le_of_lt hlt)
  · rcases List.mem_cons.1 hbehind with rfl | hbehind
    · exact absurd hlt (Nat.lt_irrefl _)
    · exact ((List.singleton_sublist.2 hbehind).cons_cons p).trans (List.sublist_append_right _ _)

/-! ## The search for overlaps -/

theorem mem_overlapsOf_iff : o ∈ overlapsOf p index ↔
    ∃ q ∈ index, q.owner ≠ p.owner ∧ q.pattern.toList <:+: p.pattern.toList ∧
      o = ⟨p.pattern, p.signature.name, q.pattern, q.signature.name⟩ := by
  simp only [overlapsOf, List.mem_map, List.mem_filter, Bool.and_eq_true, bne_iff_ne,
    Text.occursIn_iff, and_assoc, eq_comm (a := o)]

/-- The search looks at every fragment together with those behind it. -/
theorem mem_overlapsIn_iff : o ∈ overlapsIn index ↔
    ∃ p q : IndexedPattern, [p, q].Sublist index ∧ q.owner ≠ p.owner ∧
      q.pattern.toList <:+: p.pattern.toList ∧
      o = ⟨p.pattern, p.signature.name, q.pattern, q.signature.name⟩ := by
  induction index with
  | nil => simp [overlapsIn]
  | cons r rest ih =>
    rw [overlapsIn, List.mem_append, mem_overlapsOf_iff, ih]
    constructor
    · rintro (⟨q, hq, h⟩ | ⟨p, q, hpq, h⟩)
      · exact ⟨r, q, (List.singleton_sublist.2 hq).cons_cons r, h⟩
      · exact ⟨p, q, hpq.cons r, h⟩
    · rintro ⟨p, q, hpq, h⟩
      -- Either the pair begins with `r`, or both of its members stand behind `r`.
      rcases List.sublist_cons_iff.1 hpq with hpq | ⟨_, heq, hq⟩
      · exact .inr ⟨p, q, hpq, h⟩
      · obtain ⟨rfl, rfl⟩ := List.cons.inj heq
        exact .inl ⟨q, List.singleton_sublist.1 hq, h⟩

/-- If no fragment comes twice, no pair of them does. -/
theorem nodup_overlapsIn (h : (index.map IndexedPattern.pattern).Nodup) :
    ((overlapsIn index).map fun o => (o.winner, o.shadowed)).Nodup := by
  induction index with
  | nil => exact List.nodup_nil
  | cons r rest ih =>
    obtain ⟨hnew, hrest⟩ := List.nodup_cons.1 h
    rw [overlapsIn, List.map_append]
    refine List.nodup_append.2 ⟨?_, ih hrest, ?_⟩
    · -- The pairs with `r` in front have different fragments behind it.
      have hshadowed := hrest.sublist (List.filter_sublist
        (p := fun q => q.owner != r.owner && Text.occursIn q.pattern r.pattern).map _)
      rw [overlapsOf, List.map_map]
      refine List.Nodup.of_map Prod.snd ?_
      rwa [List.map_map]
    · -- In all other pairs a fragment from behind `r` stands in front.
      rintro x hx y hy rfl
      obtain ⟨o, ho, rfl⟩ := List.mem_map.1 hx
      obtain ⟨o', ho', heq⟩ := List.mem_map.1 hy
      obtain ⟨q, -, -, -, rfl⟩ := mem_overlapsOf_iff.1 ho
      obtain ⟨p, q', hsublist, -, -, rfl⟩ := mem_overlapsIn_iff.1 ho'
      have hp : p ∈ rest := hsublist.subset List.mem_cons_self
      exact hnew (List.mem_map.2 ⟨p, hp, (Prod.mk.inj heq).1⟩)

/-! ## Overlaps of signatures -/

/-- What is to be told about two different fragments that belong to different signatures, if one of
them occurs in the other. -/
def IsOverlap (signatures : List Signature) (o : PatternOverlap) : Prop :=
  ∃ p q : IndexedPattern, p.IsOwned signatures ∧ q.IsOwned signatures ∧ p.pattern ≠ q.pattern ∧
    p.owner ≠ q.owner ∧ q.pattern.toList <:+: p.pattern.toList ∧
    o = ⟨p.pattern, p.signature.name, q.pattern, q.signature.name⟩

/-- The fragment by which a class name is looked up, with its signature. -/
def deciding (db : SignatureDatabase) (className : String) : Option IndexedPattern :=
  db.index.find? fun p => Text.occursIn p.pattern className

theorem lookup_eq_deciding (db : SignatureDatabase) (className : String) :
    db.lookup className = (db.deciding className).map (·.signature) := rfl

/-- The search finds the overlaps of signatures. -/
theorem mem_overlaps_ofList_iff : o ∈ (ofList signatures).overlaps ↔ IsOverlap signatures o := by
  rw [overlaps, mem_overlapsIn_iff]
  constructor
  · rintro ⟨p, q, hpq, howner, hoccurs, rfl⟩
    have hp : p.IsOwned signatures :=
      mem_index_ofList_iff.1 (hpq.subset List.mem_cons_self)
    have hq : q.IsOwned signatures :=
      mem_index_ofList_iff.1 (hpq.subset (List.mem_cons_of_mem p List.mem_cons_self))
    have hne : p.pattern ≠ q.pattern := fun heq =>
      howner (congrArg IndexedPattern.owner (hq.unique hp heq.symm))
    exact ⟨p, q, hp, hq, hne, howner.symm, hoccurs, rfl⟩
  · rintro ⟨p, q, hp, hq, hne, howner, hoccurs, rfl⟩
    -- What occurs in another fragment is shorter, and so the index has it behind that one.
    have hlt := Utf8.length_encodeString_lt hoccurs hne.symm
    have hpq := pair_sublist_index (mem_index_ofList_iff.2 hp) (mem_index_ofList_iff.2 hq) hlt
    exact ⟨p, q, hpq, howner.symm, hoccurs, rfl⟩

/-- A class name that has a fragment is looked up by one that is at least as long. -/
theorem exists_deciding (hq : q ∈ (ofList signatures).index)
    (hoccurs : q.pattern.toList <:+: className.toList) :
    ∃ p, (ofList signatures).deciding className = some p ∧
      (Utf8.encodeString q.pattern).length ≤ (Utf8.encodeString p.pattern).length := by
  have hfound : Text.occursIn q.pattern className = true := Text.occursIn_iff.2 hoccurs
  obtain ⟨p, hp⟩ := Option.isSome_iff_exists.1 <|
    List.find?_isSome (p := fun p => Text.occursIn p.pattern className).2 ⟨q, hq, hfound⟩
  refine ⟨p, hp, ?_⟩
  rcases eq_or_of_find?_eq_some (pairwise_index signatures) hp hq hfound with rfl | hle
  · exact Nat.le_refl _
  · exact hle

/-- The overlaps of a database are the pairs of fragments of different signatures of which one
occurs in the other, each once. A class name that has the longer one is looked up by a fragment that
is at least as long, and so never by the shorter one. -/
theorem overlaps_ofList (signatures : List Signature) :
    (∀ o, o ∈ (ofList signatures).overlaps ↔ IsOverlap signatures o) ∧
    ((ofList signatures).overlaps.map fun o => (o.winner, o.shadowed)).Nodup ∧
    ∀ o ∈ (ofList signatures).overlaps, ∀ className : String,
      o.winner.toList <:+: className.toList →
        ∃ p, (ofList signatures).deciding className = some p ∧
          (ofList signatures).lookup className = some p.signature ∧
          (Utf8.encodeString o.winner).length ≤ (Utf8.encodeString p.pattern).length ∧
          p.pattern ≠ o.shadowed := by
  refine ⟨fun o => mem_overlaps_ofList_iff, nodup_overlapsIn (nodup_pattern_index signatures), ?_⟩
  intro o ho className hwinner
  obtain ⟨p, q, hp, -, hne, -, hoccurs, rfl⟩ := mem_overlaps_ofList_iff.1 ho
  obtain ⟨r, hr, hle⟩ := exists_deciding (mem_index_ofList_iff.2 hp) hwinner
  have hlookup : (ofList signatures).lookup className = some r.signature := by
    rw [lookup_eq_deciding, hr, Option.map_some]
  refine ⟨r, hr, hlookup, hle, ?_⟩
  -- The shorter fragment is shorter than the one that decides, too.
  intro heq
  have hlt : (Utf8.encodeString q.pattern).length < (Utf8.encodeString p.pattern).length :=
    Utf8.length_encodeString_lt hoccurs hne.symm
  rw [heq] at hle
  exact absurd hle (Nat.not_le_of_lt hlt)

/-- A fragment that two signatures declare belongs to the first one, and it occurs in another
fragment of the second one. -/
theorem overlaps_ofList_repeated :
    let web : Signature := ⟨none, "Web", ["web.ads.", "web.page."], "analytics", none⟩
    let banner : Signature := ⟨none, "Banner", ["web.ads.", "web.ads.Bild."], "ads", none⟩
    let db := ofList [web, banner]
    let o : PatternOverlap := ⟨"web.ads.Bild.", "Banner", "web.ads.", "Web"⟩
    let className := "org.web.ads.Bild.View"
    o ∈ db.overlaps ∧ o.winner.toList <:+: className.toList ∧
      ∃ p, db.deciding className = some p ∧ db.lookup className = some p.signature ∧
        (Utf8.encodeString o.winner).length ≤ (Utf8.encodeString p.pattern).length ∧
        p.pattern ≠ o.shadowed := by
  intro web banner db o className
  obtain ⟨hmem, -, hdecides⟩ := overlaps_ofList [web, banner]
  have hweb : IndexedPattern.IsOwned ⟨"web.ads.", 0, web⟩ [web, banner] :=
    ⟨rfl, by decide, fun i _ _ _ => Nat.zero_le i⟩
  have hbanner : IndexedPattern.IsOwned ⟨"web.ads.Bild.", 1, banner⟩ [web, banner] := by
    refine ⟨rfl, by decide, ?_⟩
    intro i s hs hpattern
    cases i with
    | zero =>
      obtain rfl : web = s := Option.some.inj hs
      exact absurd hpattern (by decide)
    | succ i => exact Nat.succ_le_succ (Nat.zero_le i)
  have ho : o ∈ db.overlaps :=
    (hmem o).2 ⟨_, _, hbanner, hweb, by decide, by decide,
      Text.occursIn_iff.1 (by decide +kernel), rfl⟩
  have hwinner : o.winner.toList <:+: className.toList :=
    Text.occursIn_iff.1 (by decide +kernel)
  exact ⟨ho, hwinner, hdecides o ho className hwinner⟩

end SignatureDatabase
end IntentFirewall
