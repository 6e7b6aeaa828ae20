import IntentFirewall.Proofs.Text.Substring
import IntentFirewall.Proofs.Text.Utf8
import IntentFirewall.Tracker.Matching
import Mathlib.Data.Finset.Card
import Mathlib.Data.List.Nodup
import Mathlib.Data.Prod.Lex
import Mathlib.Data.String.Basic

/-!
# What is reported

The trackers of a package are reported in order, each kind and name once, and which ones and with
what flags can be told without the way in which they are found.

## Main definitions

* `Tracker.Precedes`: the order of trackers, by the bytes of their names and by their kinds.
* `SignatureDatabase.IsMatching`: what is right to report.
* `Component.IsRearranged`: a list in another order, but for components with one kind and name.

## Main results

* `SignatureDatabase.mem_found_iff`, `SignatureDatabase.mem_report_iff`: which trackers are found,
  and which of them are reported.
* `SignatureDatabase.isMatching_iff`: the report is the only thing that is right to report, and the
  same for a list that is rearranged.
-/

namespace IntentFirewall

/-! ## The order of trackers -/

theorem ComponentKind.rank_injective : Function.Injective rank := by
  intro k l h
  cases k <;> cases l <;> first | rfl | simp [rank] at h

namespace Tracker

/-- What tells two trackers apart: kind and name. -/
def key (t : Tracker) : ComponentKind × String := (t.kind, t.componentName)

/-- A tracker stands before another one: names are compared by their bytes, and trackers
with one name by their kinds. -/
def Precedes (a b : Tracker) : Prop :=
  Utf8.encodeString a.componentName < Utf8.encodeString b.componentName ∨
    a.componentName = b.componentName ∧ a.kind.rank < b.kind.rank

variable {a b : Tracker}

theorem le_iff : a.le b = true ↔
    toLex (a.componentName, a.kind.rank) ≤ toLex (b.componentName, b.kind.rank) := by
  rw [Prod.Lex.toLex_le_toLex, le]
  split
  next hname => simp [hname]
  next hname => simp [hname]

/-- Of two different components that are in order, the first stands before the second. -/
theorem precedes_of_le (hle : a.le b = true) (hkey : a.key ≠ b.key) : a.Precedes b := by
  rcases Prod.Lex.toLex_le_toLex.1 (le_iff.1 hle) with hname | ⟨hname, hrank⟩
  · exact .inl (Utf8.encode_lt_encode (String.lt_iff_toList_lt.1 hname))
  · refine .inr ⟨hname, Nat.lt_of_le_of_ne hrank ?_⟩
    -- One name and one rank would be one key.
    intro heq
    exact hkey (Prod.ext (ComponentKind.rank_injective heq) hname)

theorem Precedes.key_ne (h : a.Precedes b) : a.key ≠ b.key := by
  intro heq
  obtain ⟨hkind, hname⟩ := Prod.mk.inj heq
  rcases h with hbytes | ⟨-, hrank⟩
  · rw [hname] at hbytes
    exact List.lt_irrefl _ hbytes
  · rw [hkind] at hrank
    exact Nat.lt_irrefl _ hrank

theorem Precedes.asymm (h : a.Precedes b) : ¬b.Precedes a := by
  rcases h with hbytes | ⟨hname, hrank⟩
  · rintro (hbytes' | ⟨hname', -⟩)
    · exact List.lt_asymm hbytes hbytes'
    · exact List.lt_irrefl _ (hname' ▸ hbytes)
  · rintro (hbytes' | ⟨-, hrank'⟩)
    · exact List.lt_irrefl _ (hname ▸ hbytes')
    · exact Nat.lt_asymm hrank hrank'

/-- Whether trackers stand in order depends on their kinds and names alone. -/
theorem pairwise_precedes_congr {l l' : List Tracker} (h : l.map key = l'.map key) :
    l.Pairwise Precedes ↔ l'.Pairwise Precedes := by
  have hmap (l : List Tracker) : l.Pairwise Precedes ↔ (l.map key).Pairwise fun x y =>
      Utf8.encodeString x.2 < Utf8.encodeString y.2 ∨ x.2 = y.2 ∧ x.1.rank < y.1.rank := by
    rw [List.pairwise_map]
    rfl
  rw [hmap, hmap, h]

end Tracker


namespace SignatureDatabase

/-- No two trackers that are found have one kind and one name. -/
theorem nodup_key_found (db : SignatureDatabase) (components : List Component) :
    ((db.found components).map Tracker.key).Nodup := by
  have hdistinct := nodup_distinctBy Component.key [] components
  rw [List.Nodup, List.pairwise_map] at hdistinct ⊢
  refine List.pairwise_filterMap.2 (hdistinct.imp fun {c d} hne t ht u hu => ?_)
  obtain ⟨_, -, rfl⟩ := Option.map_eq_some_iff.1 ht
  obtain ⟨_, -, rfl⟩ := Option.map_eq_some_iff.1 hu
  exact hne

/-- No two trackers of a report have one kind and one name. -/
theorem nodup_key_report (db : SignatureDatabase) (components : List Component)
    (keyword : String) : ((db.report components keyword).trackers.map Tracker.key).Nodup := by
  have hfiltered : ((filterBy keyword (db.found components)).map Tracker.key).Nodup := by
    rw [filterBy]
    split
    · exact nodup_key_found db components
    · exact (nodup_key_found db components).sublist (List.filter_sublist.map _)
  exact ((List.mergeSort_perm _ _).map Tracker.key).nodup_iff.2 hfiltered

/-- The trackers of a report stand in order. -/
theorem pairwise_precedes_report (db : SignatureDatabase)
    (components : List Component) (keyword : String) :
    (db.report components keyword).trackers.Pairwise Tracker.Precedes := by
  have hsorted : (db.report components keyword).trackers.Pairwise fun a b => a.le b = true := by
    -- Sorting asks for a transitive and total order.
    apply List.pairwise_mergeSort
    · intro a b c hab hbc
      exact Tracker.le_iff.2 ((Tracker.le_iff.1 hab).trans (Tracker.le_iff.1 hbc))
    · intro a b
      rw [Bool.or_eq_true, Tracker.le_iff, Tracker.le_iff]
      exact le_total _ _
  have hkeys := List.pairwise_map.1 (db.nodup_key_report components keyword)
  refine (hsorted.and hkeys).imp ?_
  intro a b h
  exact Tracker.precedes_of_le h.1 h.2

end SignatureDatabase

/-! ## Which trackers are reported -/

/-- A keyword asks for a component and the signature of its name: it is empty, or it occurs in the
name of the component, in the category or in the name of the signature, whatever the case. -/
def Signature.IsAskedFor (s : Signature) (keyword componentName : String) : Prop :=
  keyword = "" ∨
    (Text.lowercase keyword).toList <:+: (Text.lowercase componentName).toList ∨
    (Text.lowercase keyword).toList <:+: (Text.lowercase s.category).toList ∨
    (Text.lowercase keyword).toList <:+: (Text.lowercase s.name).toList

namespace SignatureDatabase

/-- What is right to report of components. -/
structure IsMatching (db : SignatureDatabase) (components : List Component) (keyword : String)
    (r : MatchReport) : Prop where
  /-- The trackers stand in order, so that none stands for the same component as another. -/
  increasing : r.trackers.Pairwise Tracker.Precedes
  /-- A kind and a name stand there if a component has them, a signature matches the name, and the
  keyword asks for both. -/
  occurs_iff : ∀ kind name, (∃ t ∈ r.trackers, t.kind = kind ∧ t.componentName = name) ↔
    (∃ c ∈ components, c.kind = kind ∧ c.name = name) ∧
      ∃ s, db.lookup name = some s ∧ s.IsAskedFor keyword name
  /-- A tracker has the flags of the first component with its kind and name, and no rule. -/
  carries : ∀ t ∈ r.trackers, ∃ c s,
    components.find? (fun c => c.kind = t.kind ∧ c.name = t.componentName) = some c ∧
      db.lookup t.componentName = some s ∧
      t = { componentName := t.componentName, kind := t.kind,
            signatureName := s.name, signatureId := s.id, category := s.category,
            isBlocked := false, isLogged := false,
            isEnabled := c.enabled, isExported := c.exported }
  /-- Kinds and names whose name a signature matches are counted once, whatever the keyword. -/
  matched : r.matched =
    ((components.map Component.key).toFinset.filter fun key => (db.lookup key.2).isSome).card
  /-- All components are counted. -/
  scanned : r.scanned = components.length

variable {db : SignatureDatabase} {components : List Component} {keyword : String} {t : Tracker}

/-- The trackers that are found are those of the first components with their kinds and names. -/
theorem mem_found_iff : t ∈ db.found components ↔
    ∃ c s, components.find? (·.key = t.key) = some c ∧ db.lookup c.name = some s ∧
      t = .ofMatch c s := by
  rw [found, List.mem_filterMap]
  constructor
  · rintro ⟨c, hc, ht⟩
    obtain ⟨s, hs, rfl⟩ := Option.map_eq_some_iff.1 ht
    exact ⟨c, s, (mem_distinctBy_iff.1 hc).2, hs, rfl⟩
  · rintro ⟨c, s, hc, hs, rfl⟩
    exact ⟨c, mem_distinctBy_iff.2 ⟨List.not_mem_nil, hc⟩, Option.map_eq_some_iff.2 ⟨s, hs, rfl⟩⟩

/-- A tracker is let through if the keyword asks for it. -/
theorem mem_filterBy_iff {trackers : List Tracker} : t ∈ filterBy keyword trackers ↔
    t ∈ trackers ∧ (keyword = "" ∨ t.mentions (Text.lowercase keyword) = true) := by
  rw [filterBy]
  split
  next hempty => simp [Text.lowercase_eq_empty_iff.1 hempty]
  next hne => simp [mt Text.lowercase_eq_empty_iff.2 hne]

theorem isAskedFor_iff {c : Component} {s : Signature} : s.IsAskedFor keyword c.name ↔
    keyword = "" ∨ (Tracker.ofMatch c s).mentions (Text.lowercase keyword) = true := by
  simp only [Signature.IsAskedFor, Tracker.mentions, Bool.or_eq_true, Text.occursIn_iff, or_assoc]
  rfl

/-- The trackers that are reported are those that are found and that the keyword asks for. -/
theorem mem_report_iff : t ∈ (db.report components keyword).trackers ↔
    ∃ c s, components.find? (·.key = t.key) = some c ∧ db.lookup c.name = some s ∧
      s.IsAskedFor keyword c.name ∧ t = .ofMatch c s := by
  rw [report, List.mem_mergeSort, mem_filterBy_iff, mem_found_iff]
  constructor
  · rintro ⟨⟨c, s, hc, hs, rfl⟩, hkeyword⟩
    exact ⟨c, s, hc, hs, isAskedFor_iff.2 hkeyword, rfl⟩
  · rintro ⟨c, s, hc, hs, hkeyword, rfl⟩
    exact ⟨⟨c, s, hc, hs, rfl⟩, isAskedFor_iff.1 hkeyword⟩

/-- Trackers are found for the kinds and names whose name a signature matches. -/
theorem mem_map_key_found_iff {key : ComponentKind × String} :
    key ∈ (db.found components).map Tracker.key ↔
      key ∈ components.map Component.key ∧ (db.lookup key.2).isSome = true := by
  rw [List.mem_map, List.mem_map]
  constructor
  · rintro ⟨t, ht, rfl⟩
    obtain ⟨c, s, hc, hs, rfl⟩ := mem_found_iff.1 ht
    exact ⟨⟨c, List.mem_of_find?_eq_some hc, rfl⟩, Option.isSome_iff_exists.2 ⟨s, hs⟩⟩
  · rintro ⟨⟨c, hc, rfl⟩, hlookup⟩
    -- Another component may be the first one with the key of `c`.
    obtain ⟨d, hd, hkey⟩ : ∃ d ∈ distinctBy Component.key [] components, d.key = c.key :=
      exists_mem_distinctBy hc List.not_mem_nil
    have hname : d.name = c.name := congrArg Prod.snd hkey
    obtain ⟨s, hs⟩ := Option.isSome_iff_exists.1 hlookup
    have hmatch : (db.lookup d.name).map (Tracker.ofMatch d) = some (.ofMatch d s) :=
      Option.map_eq_some_iff.2 ⟨s, hname ▸ hs, rfl⟩
    exact ⟨.ofMatch d s, List.mem_filterMap.2 ⟨d, hd, hmatch⟩, hkey⟩

/-- The report is right. -/
theorem isMatching_report (db : SignatureDatabase) (components : List Component)
    (keyword : String) : db.IsMatching components keyword (db.report components keyword) where
  increasing := pairwise_precedes_report db components keyword
  occurs_iff kind name := by
    constructor
    · rintro ⟨t, ht, rfl, rfl⟩
      obtain ⟨c, s, hc, hs, hkeyword, rfl⟩ := mem_report_iff.1 ht
      exact ⟨⟨c, List.mem_of_find?_eq_some hc, rfl, rfl⟩, s, hs, hkeyword⟩
    · rintro ⟨⟨c, hc, rfl, rfl⟩, s, hs, hkeyword⟩
      have hkey : c.key ∈ (db.found components).map Tracker.key :=
        mem_map_key_found_iff.2
          ⟨List.mem_map_of_mem hc, Option.isSome_iff_exists.2 ⟨s, hs⟩⟩
      obtain ⟨t, ht, htc⟩ := List.mem_map.1 hkey
      obtain ⟨d, s', hd, hs', rfl⟩ := mem_found_iff.1 ht
      obtain ⟨hkind, hname⟩ : d.kind = c.kind ∧ d.name = c.name := Prod.mk.inj htc
      obtain rfl : s' = s := Option.some.inj ((hname ▸ hs').symm.trans hs)
      exact ⟨_, mem_report_iff.2 ⟨d, s', hd, hs', hname ▸ hkeyword, rfl⟩, hkind, hname⟩
  carries t ht := by
    obtain ⟨c, s, hc, hs, -, rfl⟩ := mem_report_iff.1 ht
    refine ⟨c, s, ?_, hs, rfl⟩
    simpa only [Component.key, Tracker.key, Prod.mk.injEq] using hc
  matched := by
    have hlength : (db.report components keyword).matched =
        ((db.found components).map Tracker.key).length := (List.length_map _).symm
    rw [hlength, ← List.toFinset_card_of_nodup (nodup_key_found db components)]
    congr 1
    ext key
    rw [List.mem_toFinset, mem_map_key_found_iff, Finset.mem_filter, List.mem_toFinset]
  scanned := rfl

namespace IsMatching

variable {r r' : MatchReport}

/-- What a tracker is follows from its kind and name, so that two right reports have the same. -/
theorem mem_of_mem (h : db.IsMatching components keyword r)
    (h' : db.IsMatching components keyword r') (ht : t ∈ r.trackers) : t ∈ r'.trackers := by
  obtain ⟨t', ht', hkind, hname⟩ :=
    (h'.occurs_iff t.kind t.componentName).2 ((h.occurs_iff _ _).1 ⟨t, ht, rfl, rfl⟩)
  obtain ⟨c, s, hc, hs, htracker⟩ := h.carries t ht
  obtain ⟨c', s', hc', hs', htracker'⟩ := h'.carries t' ht'
  rw [hkind, hname] at hc' htracker'
  rw [hname] at hs'
  obtain rfl := Option.some.inj (hc.symm.trans hc')
  obtain rfl := Option.some.inj (hs.symm.trans hs')
  rw [htracker, ← htracker']
  exact ht'

theorem nodup (h : db.IsMatching components keyword r) : r.trackers.Nodup := by
  refine h.increasing.imp ?_
  intro a b hlt heq
  exact hlt.key_ne (congrArg Tracker.key heq)

/-- Only one report is right. -/
theorem unique (h : db.IsMatching components keyword r)
    (h' : db.IsMatching components keyword r') : r = r' := by
  have hmem (t : Tracker) : t ∈ r.trackers ↔ t ∈ r'.trackers :=
    ⟨fun ht => h.mem_of_mem h' ht, fun ht => h'.mem_of_mem h ht⟩
  -- Lists in order that have the same members are the same.
  have htrackers : r.trackers = r'.trackers :=
    List.Perm.eq_of_pairwise (fun _ _ _ _ hab hba => absurd hba hab.asymm) h.increasing
      h'.increasing ((List.perm_ext_iff_of_nodup h.nodup h'.nodup).2 hmem)
  have hscanned : r.scanned = r'.scanned := h.scanned.trans h'.scanned.symm
  have hmatched : r.matched = r'.matched := h.matched.trans h'.matched.symm
  calc r = ⟨r.trackers, r.scanned, r.matched⟩ := rfl
    _ = r' := by rw [htrackers, hscanned, hmatched]

end IsMatching
end SignatureDatabase

/-! ## Components in another order -/

namespace Component

/-- A list of components in another order, but for components with one kind and name. -/
def IsRearranged (components components' : List Component) : Prop :=
  ∀ key, components'.filter (·.key = key) = components.filter (·.key = key)

namespace IsRearranged

variable {components components' : List Component}

theorem perm (h : IsRearranged components components') : components'.Perm components := by
  rw [List.perm_iff_count]
  intro c
  have hcount (l : List Component) : (l.filter (·.key = c.key)).count c = l.count c :=
    List.count_filter (decide_eq_true rfl)
  rw [← hcount components', h, hcount]

/-- The first component with a kind and a name stays the same. -/
theorem find?_eq (h : IsRearranged components components') (key : ComponentKind × String) :
    components'.find? (·.key = key) = components.find? (·.key = key) := by
  rw [← List.head?_filter, h, List.head?_filter]

/-- What is right to report stays right. -/
theorem isMatching (h : IsRearranged components components') {db : SignatureDatabase}
    {keyword : String} {r : MatchReport} (hr : db.IsMatching components' keyword r) :
    db.IsMatching components keyword r where
  increasing := hr.increasing
  occurs_iff kind name := by
    rw [hr.occurs_iff]
    simp only [h.perm.mem_iff]
  carries t ht := by
    obtain ⟨c, s, hc, hs, htracker⟩ := hr.carries t ht
    have hkey := h.find?_eq t.key
    simp only [Component.key, Tracker.key, Prod.mk.injEq] at hkey
    exact ⟨c, s, hkey ▸ hc, hs, htracker⟩
  matched := by
    rw [hr.matched, List.toFinset_eq_of_perm _ _ (h.perm.map Component.key)]
  scanned := hr.scanned.trans h.perm.length_eq

end IsRearranged
end Component

/-- The report is the only thing that is right to report, and it stays the same if components are
rearranged that differ in kind or name. -/
theorem SignatureDatabase.isMatching_iff (db : SignatureDatabase) (components : List Component)
    (keyword : String) :
    (∀ r, db.IsMatching components keyword r ↔ r = db.report components keyword) ∧
      ∀ components', Component.IsRearranged components components' →
        db.report components' keyword = db.report components keyword := by
  have hreport := isMatching_report db components keyword
  refine ⟨fun r => ⟨fun h => h.unique hreport, fun h => h ▸ hreport⟩, fun components' h => ?_⟩
  exact (h.isMatching (isMatching_report db components' keyword)).unique hreport

/-- A keyword in another case, and of two receivers with one name the first one is not enabled. -/
theorem SignatureDatabase.isMatching_iff_swap :
    let ads : Signature := ⟨none, "Ads", ["ads."], "profiling", none⟩
    let db : SignatureDatabase := ⟨[ads], [⟨"ads.", 0, ads⟩]⟩
    let screen : Component := ⟨.activity, "org.ads.Screen", true, true⟩
    let first : Component := ⟨.receiver, "org.ads.Boot", false, false⟩
    let second : Component := ⟨.receiver, "org.ads.Boot", true, true⟩
    let report := db.report [screen, first, second] "PROFIL"
    Component.IsRearranged [screen, first, second] [first, screen, second] ∧
      db.IsMatching [screen, first, second] "PROFIL" report ∧
      db.report [first, screen, second] "PROFIL" = report ∧
      Tracker.ofMatch first ads ∈ report.trackers := by
  intro ads db screen first second report
  have hrearranged : Component.IsRearranged [screen, first, second] [first, screen, second] := by
    intro key
    by_cases hkey : screen.key = key
    · have hne : first.key ≠ key := hkey ▸ by decide
      simp [List.filter_cons, hkey, hne]
    · simp [List.filter_cons, hkey]
  have hkeyword : ads.IsAskedFor "PROFIL" first.name := .inr (.inr (.inl (by decide +kernel)))
  obtain ⟨hreport, hsame⟩ := isMatching_iff db [screen, first, second] "PROFIL"
  exact ⟨hrearranged, (hreport _).2 rfl, hsame _ hrearranged,
    mem_report_iff.2 ⟨first, ads, by decide, by decide +kernel, hkeyword, rfl⟩⟩

end IntentFirewall
