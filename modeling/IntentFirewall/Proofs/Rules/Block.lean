import IntentFirewall.Proofs.Rules.Operations
import IntentFirewall.Proofs.Rules.Preservation

/-!
# Blocking and reading back

The rule store on a storage in memory. Blocking trackers reports every one of them as blocked. What
the rule file says about them afterwards is another matter: the filter of a tracker does not tell
its kind, so that of several trackers with one name only those of the last kind are blocked.

* `RuleStore.applyState_block`: what is read back after blocking.
* `RuleStore.applyState_block_iff`: exactly when it is what blocking has reported.
-/

namespace IntentFirewall

/-- Kinds with the same rule element are the same. -/
theorem RuleTag.forKind?_inj {k l : ComponentKind} {tag : RuleTag} (hk : forKind? k = some tag)
    (hl : forKind? l = some tag) : k = l := by
  rw [← hl] at hk
  cases k <;> cases l <;> first | rfl | simp [forKind?] at hk hl

namespace RuleStore

/-- The kind of the last tracker with a given name. -/
def lastKind? (name : String) (trackers : List Tracker) : Option ComponentKind :=
  lastValue? name (trackers.map fun t => (t.componentName, t.kind))

/-- Of the trackers with one name, one is the last. -/
theorem exists_lastKind? {t : Tracker} {trackers : List Tracker} (h : t ∈ trackers) :
    ∃ u ∈ trackers, u.componentName = t.componentName ∧
      lastKind? t.componentName trackers = some u.kind := by
  have hsome : (lastKind? t.componentName trackers).isSome = true :=
    isSome_lastValue?_iff.2 ⟨_, List.mem_map_of_mem h, rfl⟩
  obtain ⟨kind, hkind⟩ := Option.isSome_iff_exists.1 hsome
  obtain ⟨u, hu, heq⟩ := List.mem_map.1 (mem_of_lastValue? hkind)
  obtain ⟨hname, rfl⟩ := Prod.mk.inj heq
  exact ⟨u, hu, hname, hkind⟩

/-- The last tracker of every name has the kind of all others with that name exactly if names tell
kinds. -/
theorem lastKind?_eq_some_iff {trackers : List Tracker} :
    (∀ t ∈ trackers, lastKind? t.componentName trackers = some t.kind) ↔
      ∀ t ∈ trackers, ∀ u ∈ trackers, t.componentName = u.componentName → t.kind = u.kind := by
  constructor
  · intro h t ht u hu hname
    have hlast := h t ht
    rw [hname, h u hu] at hlast
    exact (Option.some.inj hlast).symm
  · intro h t ht
    obtain ⟨u, hu, hname, hkind⟩ := exists_lastKind? ht
    rw [hkind, h u hu t ht hname]

variable {store : RuleStore} {packageName : String} {trackers : List Tracker} {m m' : Memory}

/-- The last entry of a name has the tag of the last tracker with that name. -/
theorem lastValue?_ruleEntries {entries : List (RuleTag × String)}
    (h : ruleEntries packageName trackers = .ok entries) {name : String}
    {kind : ComponentKind} (hkind : lastKind? name trackers = some kind) :
    ∃ tag, RuleTag.forKind? kind = some tag ∧
      lastValue? (packageName ++ "/" ++ name) (entries.map Prod.swap) = some tag := by
  have hentries := lastValue?_map Function.injective_id (some : RuleTag → _)
    (packageName ++ "/" ++ name) (entries.map Prod.swap)
  have htrackers := lastValue?_map (filterName_injective packageName) RuleTag.forKind? name
    (trackers.map fun t => (t.componentName, t.kind))
  rw [List.map_map] at hentries htrackers
  rw [← lastKind?, hkind, Option.map_some] at htrackers
  -- Both sides are the last value of the same pairs.
  have hsame := hentries.symm.trans
    ((congrArg (lastValue? (packageName ++ "/" ++ name)) (map_ruleEntries h)).trans htrackers)
  obtain ⟨tag, htag, hkindTag⟩ := Option.map_eq_some_iff.1 hsame
  exact ⟨tag, hkindTag.symm, htag⟩

/-! ## Reading back -/

theorem isReadable_blocked (entries : List (RuleTag × String)) {d : Document} (h : d.IsReadable) :
    (blocked entries d).IsReadable := by
  induction entries generalizing d with
  | nil => exact h
  | cons e rest ih => exact ih (h.block e.1 e.2)

theorem isSealed_blocked (entries : List (RuleTag × String)) {d : Document} (h : d.IsSealed) :
    (blocked entries d).IsSealed := by
  induction entries generalizing d with
  | nil => exact h
  | cons e rest ih => exact ih (h.block e.1 e.2)

/-- After blocking, a tracker has the state of a blocked one if no later tracker has its name and
another kind, and that of an unknown one otherwise. -/
theorem stateIn_blocked {entries : List (RuleTag × String)}
    (hentries : ruleEntries packageName trackers = .ok entries) (d : Document) {t : Tracker}
    (ht : t ∈ trackers) :
    stateIn packageName (some (blocked entries d).normal) t =
      if lastKind? t.componentName trackers = some t.kind then some false else none := by
  obtain ⟨u, hu, -, hkind⟩ := exists_lastKind? ht
  obtain ⟨last, hlast, hentry⟩ := lastValue?_ruleEntries hentries hkind
  obtain ⟨tag, htag⟩ : ∃ tag, RuleTag.forKind? t.kind = some tag := by
    have hmem : (t.filterName packageName, RuleTag.forKind? t.kind) ∈
        entries.map fun e => (e.2, some e.1) := by
      rw [map_ruleEntries hentries]
      exact List.mem_map.2 ⟨t, ht, rfl⟩
    obtain ⟨e, -, he⟩ := List.mem_map.1 hmem
    exact ⟨e.1, (Prod.mk.inj he).2.symm⟩
  -- Tags tell kinds, so the last entry has the tag of `t` exactly if its tracker has its kind.
  have hsame : tag = last ↔ some u.kind = some t.kind := by
    rw [Option.some.injEq]
    constructor
    · rintro rfl
      exact RuleTag.forKind?_inj hlast htag
    · intro heq
      exact Option.some.inj (htag.symm.trans (heq ▸ hlast))
  simp only [stateIn, htag]
  rw [Document.blockingState_normal, Tracker.filterName, blockingState_blocked hentry, hkind]
  simp only [hsame]

/-- What blocking trackers reports, and what is read back afterwards. -/
theorem applyState_block (hname : isPackageName packageName = true) (hdenied : m.denied = false)
    {d : Document} (hdocument : store.document packageName m = .ok d) (hsealed : d.IsSealed)
    {out : List Tracker} (hblock : store.block packageName trackers m = (.ok out, m')) :
    out = trackers.map (·.withState (some false)) ∧
      store.applyState packageName trackers m' =
        (.ok (trackers.map fun t => t.withState
          (if lastKind? t.componentName trackers = some t.kind then some false else none)),
            m') := by
  by_cases hne : trackers = []
  · subst hne
    obtain ⟨rfl, rfl⟩ : [] = out ∧ m = m' := by simpa [store.block_nil] using hblock
    rw [store.applyState_eq hname hdenied, hdocument]
    exact ⟨rfl, rfl⟩
  · obtain ⟨entries, d', hentries, hd', rfl, rfl⟩ := exists_of_block hname hne hblock
    obtain rfl : d = d' := Except.ok.inj (hdocument.symm.trans hd')
    refine ⟨rfl, ?_⟩
    have hreadable := Document.isReadable_of_ofBytes hdocument
    have hstates : (trackers.map fun t =>
        t.withState (stateIn packageName (some (blocked entries d).normal) t)) =
        trackers.map fun t => t.withState
          (if lastKind? t.componentName trackers = some t.kind then some false else none) :=
      List.map_congr_left fun t ht => by rw [stateIn_blocked hentries d ht]
    have hdenied' : (m.rewritten (store.rulesFile packageName)
        (blocked entries d).toBytes).denied = false := hdenied
    rw [store.applyState_eq hname hdenied', store.document_rewritten
      (isReadable_blocked entries hreadable) (isSealed_blocked entries hsealed), ← hstates]

theorem map_withState_eq_iff {p : Tracker → Prop} [DecidablePred p] {trackers : List Tracker} :
    (trackers.map fun t => t.withState (if p t then some false else none)) =
      trackers.map (·.withState (some false)) ↔ ∀ t ∈ trackers, p t := by
  rw [List.map_inj_left]
  refine forall₂_congr fun t _ => ?_
  by_cases h : p t <;> simp [h, Tracker.withState]

/-- Blocking reports every tracker as blocked without logging. Reading the rule file back agrees
with that exactly if no two of the trackers have one name and different kinds, and the file was a
rule document before, which matters only if there was nothing to block. -/
theorem applyState_block_iff (hname : isPackageName packageName = true) (hdenied : m.denied = false)
    (hsealed : ∀ d, store.document packageName m = .ok d → d.IsSealed) {out : List Tracker}
    (hblock : store.block packageName trackers m = (.ok out, m')) :
    out = trackers.map (·.withState (some false)) ∧
      (store.applyState packageName trackers m' = (.ok out, m') ↔
        (∃ d, store.document packageName m = .ok d) ∧ ∀ t ∈ trackers, ∀ u ∈ trackers,
          t.componentName = u.componentName → t.kind = u.kind) := by
  cases hdocument : store.document packageName m with
  | error e =>
    -- The call can only have succeeded because it did not look at the file.
    by_cases hne : trackers = []
    · subst hne
      obtain ⟨rfl, rfl⟩ : [] = out ∧ m = m' := by simpa [store.block_nil] using hblock
      refine ⟨rfl, ?_⟩
      rw [store.applyState_eq hname hdenied, hdocument]
      simp
    · obtain ⟨-, d, -, hd, -⟩ := exists_of_block hname hne hblock
      simp [hdocument] at hd
  | ok d =>
    obtain ⟨rfl, happly⟩ := applyState_block hname hdenied hdocument (hsealed d hdocument) hblock
    refine ⟨rfl, ?_⟩
    rw [happly, Prod.mk.injEq, Except.ok.injEq, and_iff_left rfl, map_withState_eq_iff,
      lastKind?_eq_some_iff]
    exact (and_iff_right ⟨d, rfl⟩).symm

/-- A file with a logging rule and a foreign element, and trackers one of which comes twice. -/
theorem applyState_block_iff_logging :
    let store : RuleStore := ⟨"/ifw"⟩
    let t : Tracker := ⟨"com.t.Ad", .activity, "T", none, "ads", false, false, true, true⟩
    let u : Tracker := ⟨"com.t.Up", .receiver, "T", none, "ads", true, true, true, false⟩
    let m := Memory.empty.put (store.rulesFile "com.app") (Utf8.encode ("<rules><x k=\"'\">y</x>" ++
      "<activity block='TRUE' log='true'><component-filter name='com.app/com.t.Up'/></activity>" ++
      "</rules>").toList)
    let m' := (store.block "com.app" [t, u, t] m).2
    store.block "com.app" [t, u, t] m = (.ok ([t, u, t].map (·.withState (some false))), m') ∧
      store.applyState "com.app" [t, u, t] m' =
        (.ok ([t, u, t].map (·.withState (some false))), m') := by
  intro store t u m m'
  have hdenied : m.denied = false := rfl
  have hdocument : store.document "com.app" m = .ok ⟨[], .element "x" [("k", "'")] (.text "y" .nil)
      (.element "activity" [("block", "TRUE"), ("log", "true")]
        (.ofFilter "com.app/com.t.Up") .nil)⟩ := by
    decide +kernel
  have hblock : store.block "com.app" [t, u, t] m =
      (.ok ([t, u, t].map (·.withState (some false))), m') :=
    store.block_eq_ok (by decide) rfl rfl (by simp) hdocument
  have hsealed : ∀ d, store.document "com.app" m = .ok d → d.IsSealed := by
    intro d hd
    obtain rfl := Except.ok.inj (hdocument.symm.trans hd)
    exact Document.IsWellNamed.isSealed ⟨by decide, by decide, by decide, trivial, by decide,
      by decide, Xml.Content.isWellNamed_ofFilter _, trivial⟩
  exact ⟨hblock,
    (applyState_block_iff (by decide) hdenied hsealed hblock).2.2 ⟨⟨_, hdocument⟩, by decide⟩⟩

/-- Of two trackers with one name, the first is reported as blocked, but only the second one is. -/
theorem applyState_block_ne :
    let store : RuleStore := ⟨"/ifw"⟩
    let t : Tracker := ⟨"com.t.Ad", .activity, "T", none, "ads", false, false, true, true⟩
    let u : Tracker := ⟨"com.t.Ad", .service, "T", none, "ads", false, false, true, true⟩
    let m' := (store.block "com.app" [t, u] Memory.empty).2
    (store.block "com.app" [t, u] Memory.empty).1 =
        .ok [t.withState (some false), u.withState (some false)] ∧
      store.applyState "com.app" [t, u] m' =
        (.ok [t.withState none, u.withState (some false)], m') := by
  intro store t u m'
  have hdocument : store.document "com.app" Memory.empty = .ok .empty := rfl
  have hblock : store.block "com.app" [t, u] Memory.empty =
      (.ok ([t, u].map (·.withState (some false))), m') :=
    store.block_eq_ok (by decide) rfl rfl (by simp) hdocument
  exact ⟨congrArg Prod.fst hblock,
    (applyState_block (by decide) rfl hdocument Document.isSealed_empty hblock).2⟩

/-- An element without a name is read, but the tag that is written for it is an end tag. -/
example :
    let store : RuleStore := ⟨"/ifw"⟩
    let t : Tracker := ⟨"com.t.Ad", .activity, "T", none, "ads", false, false, true, true⟩
    let m := Memory.empty.put (store.rulesFile "com.app")
      (Utf8.encode "<rules>< ></></rules>".toList)
    (store.block "com.app" [t] m).1.isOk = true ∧
      (store.applyState "com.app" [t] (store.block "com.app" [t] m).2).1.isOk = false := by
  decide +kernel

end RuleStore
end IntentFirewall
