import IntentFirewall.Proofs.Monitor.Slots

/-!
# Lists of trackers that are published

Whatever is asked of a monitor, the list of trackers that it has published is in order, has every
component once, and its flags fit together. So do those of the single tracker.

* `IsListing`: what holds of a list. `Monitor.isListing_survey` says that it holds of every report,
  and `IsListing.set` that a change in place keeps it.
* `RuleStore.isConsistent_of_carryOut`: the flags of trackers that a call has changed.
* `Monitor.isSound_run`: what is published is sound at all times, as every event keeps it so
  (`Monitor.isSound_react`).
-/

namespace IntentFirewall

/-! ## The flags of trackers -/

/-- The flags of a tracker fit together. -/
structure Tracker.IsConsistent (t : Tracker) : Prop where
  /-- Providers are not blocked. -/
  provider : t.kind = .provider → t.isBlocked = false
  /-- Only a rule that blocks can log. -/
  logged : t.isLogged = true → t.isBlocked = true

theorem Tracker.isConsistent_withState {t : Tracker} {state : Option Bool}
    (h : t.kind = .provider → state = none) : (t.withState state).IsConsistent where
  provider hkind := by
    rw [h hkind]
    rfl
  logged hlogged := by
    rw [isLogged_withState_iff] at hlogged
    rw [hlogged]
    rfl

/-- Trackers that have just been found are not blocked. -/
theorem SignatureDatabase.withState_of_mem_report {db : SignatureDatabase}
    {components : List Component} {keyword : String} {t : Tracker}
    (ht : t ∈ (db.report components keyword).trackers) : t.withState none = t := by
  have hmem : t ∈ filterBy keyword (db.found components) := List.mem_mergeSort.1 ht
  have hfound : t ∈ db.found components := by
    unfold filterBy at hmem
    split at hmem
    · exact hmem
    · exact List.mem_of_mem_filter hmem
  obtain ⟨c, -, hc⟩ := List.mem_filterMap.1 hfound
  obtain ⟨signature, -, rfl⟩ := Option.map_eq_some_iff.1 hc
  rfl

namespace RuleStore

theorem stateIn_of_provider (packageName : String) (d : Option Document) {t : Tracker}
    (h : t.kind = .provider) : stateIn packageName d t = none := by
  cases d <;> simp [stateIn, h, RuleTag.forKind?]

/-! ## Trackers that a call has changed -/

section

variable {σ α : Type} [Storage σ] {s s' : σ}

/-- What is told of an edit that succeeds is what the edit tells. -/
theorem exists_of_transact {path : String} {edit : Edit α} {answer : α}
    (h : transact path edit s = (.ok answer, s')) : ∃ d, answer = (edit d).1 := by
  unfold transact at h
  split at h
  · simp at h
  split at h
  · simp at h
  split at h
  · simp at h
  next d _ =>
    dsimp only at h
    split at h
    · simp at h
    · exact ⟨d, (Except.ok.inj (congrArg Prod.fst h)).symm⟩

/-- The answer of a plan, if nothing goes wrong. -/
def Plan.answer? : Plan → Option Answer
  | settled result => result.toOption
  | editing _ answer => some answer

/-- A plan that succeeds gives its answer, unless there is no rule file. -/
theorem Plan.answer?_of_carryOut {p : Plan} {path : String} {change : Document → Document}
    {a : Answer} (h : p.carryOut path change s = (.ok a, s')) :
    p.answer? = some a ∨ a = .unblocked .noRulesFile := by
  cases p with
  | settled result =>
    rw [Plan.carryOut] at h
    obtain rfl : result = .ok a := congrArg Prod.fst h
    exact .inl rfl
  | editing existing answer =>
    cases existing with
    | false =>
      rw [Plan.carryOut] at h
      obtain ⟨d, hd⟩ := exists_of_transact h
      exact .inl (congrArg some hd.symm)
    | true =>
      -- Whether there is a file is found out first.
      rw [Plan.carryOut] at h
      split at h
      · simp at h
      · exact .inr (Except.ok.inj (congrArg Prod.fst h)).symm
      · obtain ⟨d, hd⟩ := exists_of_transact h
        exact .inl (congrArg some hd.symm)

end

/-- Trackers that have entries are no providers. -/
theorem exists_tag_of_ruleEntries {packageName : String} {trackers : List Tracker}
    {entries : List (RuleTag × String)} (h : ruleEntries packageName trackers = .ok entries)
    {t : Tracker} (ht : t ∈ trackers) : ∃ tag, RuleTag.forKind? t.kind = some tag := by
  have hmem : (t.filterName packageName, RuleTag.forKind? t.kind) ∈
      trackers.map fun t => (t.filterName packageName, RuleTag.forKind? t.kind) :=
    List.mem_map_of_mem ht
  rw [← map_ruleEntries h] at hmem
  obtain ⟨e, -, he⟩ := List.mem_map.1 hmem
  exact ⟨e.1, (congrArg Prod.snd he).symm⟩

/-- The flags that are planned for the trackers of a call fit together. -/
theorem Call.isConsistent_of_plan {packageName : String} {c : Call} {a : Answer}
    (h : (c.plan packageName).answer? = some a) {trackers : List Tracker}
    (hchanged : a.changed? = some trackers) : ∀ t ∈ trackers, t.IsConsistent := by
  cases c with
  | block given =>
    rw [plan] at h
    split at h
    next => cases h
    next =>
      obtain rfl : Answer.blocked [] = a := Option.some.inj h
      obtain rfl := Option.some.inj hchanged
      simp
    next hentries =>
      split at h
      next =>
        obtain rfl : Answer.blocked _ = a := Option.some.inj h
        obtain rfl := Option.some.inj hchanged
        rw [List.forall_mem_map]
        intro t ht
        apply Tracker.isConsistent_withState
        -- A provider would have no rule element to be blocked under.
        intro hkind
        obtain ⟨tag, htag⟩ := exists_tag_of_ruleEntries hentries ht
        rw [hkind] at htag
        cases htag
      next => cases h
  | unblock given =>
    rw [plan] at h
    split at h
    next =>
      obtain rfl : Answer.unblocked _ = a := Option.some.inj h
      obtain rfl := Option.some.inj hchanged
      rw [List.forall_mem_map]
      intro t _
      exact Tracker.isConsistent_withState fun _ => rfl
    next => cases h

/-- The flags of the trackers that a call has changed fit together. -/
theorem isConsistent_of_carryOut {σ : Type} [Storage σ] {s s' : σ} {store : RuleStore}
    {packageName : String} {c : Call} {a : Answer}
    (hcall : store.carryOut packageName c s = (.ok a, s')) {trackers : List Tracker}
    (hchanged : a.changed? = some trackers) : ∀ t ∈ trackers, t.IsConsistent := by
  rw [carryOut_eq] at hcall
  rcases Plan.answer?_of_carryOut hcall with hanswer | rfl
  · exact Call.isConsistent_of_plan hanswer hchanged
  · cases hchanged

end RuleStore

/-! ## Lists -/

/-- What holds of a list of trackers that is published. -/
structure IsListing (trackers : List Tracker) : Prop where
  /-- The trackers stand in order. -/
  sorted : trackers.Pairwise Tracker.Precedes
  /-- Every component is listed once. -/
  nodup : (trackers.map Tracker.key).Nodup
  /-- Flags fit together. -/
  consistent : ∀ t ∈ trackers, t.IsConsistent

theorem isListing_of_pairwise {trackers : List Tracker}
    (hsorted : trackers.Pairwise Tracker.Precedes) (hconsistent : ∀ t ∈ trackers, t.IsConsistent) :
    IsListing trackers where
  sorted := hsorted
  nodup := List.pairwise_map.2 (hsorted.imp Tracker.Precedes.key_ne)
  consistent := hconsistent

/-- A tracker that takes the place of one for the same component keeps the list what it is. -/
theorem IsListing.set {trackers : List Tracker} (h : IsListing trackers) {t u : Tracker} {p : Nat}
    (hplace : trackers[p]? = some t) (hkey : t.key = u.key) (hu : u.IsConsistent) :
    IsListing (trackers.set p u) := by
  have hkeys : (trackers.set p u).map Tracker.key = trackers.map Tracker.key := by
    obtain ⟨hlt, hget⟩ := List.getElem?_eq_some_iff.1 hplace
    have hlt : p < (trackers.map Tracker.key).length := by simpa using hlt
    have hentry : (trackers.map Tracker.key)[p] = u.key := by
      rw [List.getElem_map, hget, hkey]
    rw [List.map_set, ← hentry, List.set_getElem_self]
  refine isListing_of_pairwise ((Tracker.pairwise_precedes_congr hkeys).2 h.sorted) ?_
  intro v hv
  rcases List.mem_or_eq_of_mem_set hv with hold | rfl
  · exact h.consistent v hold
  · exact hu

namespace Monitor

open RuleStore

section

variable {σ : Type} [Storage σ]

/-- Trackers that get the state in the rule file get it from some document, unless they stay as they
are. -/
theorem withRuleState_cases (m : Monitor σ) (trackers : List Tracker) (storage : σ) :
    (m.withRuleState trackers storage).1.1 = trackers ∨
      ∃ d, (m.withRuleState trackers storage).1.1 =
        trackers.map fun t => t.withState (stateIn m.package.packageName d t) := by
  unfold withRuleState
  split
  · exact .inl rfl
  next store _ =>
    unfold applyState
    cases store.readDocument m.package.packageName storage with
    | mk result storage =>
      cases result with
      | error e => exact .inl rfl
      | ok d => exact .inr ⟨d, rfl⟩

/-- The trackers of every report can be published, whatever the rule file says about them. -/
theorem isListing_survey {m : Monitor σ} {keyword : String} {storage storage' : σ}
    {report : ScanReport} (h : m.survey keyword storage = (.ok report, storage')) :
    IsListing report.trackers := by
  unfold survey at h
  split at h
  next => simp at h
  next found _ =>
    let listed := (m.signatures.report found.components keyword).trackers
    have hsorted : listed.Pairwise Tracker.Precedes :=
      m.signatures.pairwise_precedes_report found.components keyword
    have htrackers : (m.withRuleState listed storage).1.1 = report.trackers :=
      congrArg ScanReport.trackers (Except.ok.inj (congrArg Prod.fst h))
    rw [← htrackers]
    rcases m.withRuleState_cases listed storage with hstate | ⟨d, hstate⟩
    · -- Nothing is known about the rules: the trackers are as they have been found.
      rw [hstate]
      refine isListing_of_pairwise hsorted ?_
      intro t ht
      rw [← SignatureDatabase.withState_of_mem_report ht]
      exact Tracker.isConsistent_withState fun _ => rfl
    · rw [hstate]
      refine isListing_of_pairwise ?_ ?_
      · refine (Tracker.pairwise_precedes_congr ?_).2 hsorted
        rw [List.map_map]
        rfl
      · rw [List.forall_mem_map]
        intro t _
        exact Tracker.isConsistent_withState (stateIn_of_provider _ d)

end
end Monitor

/-! ## Sessions -/

/-- What holds of the trackers that are published in a session. -/
structure Session.IsSound {σ : Type} (s : Session σ) : Prop where
  /-- Those of the list. -/
  listing : ∀ trackers, s.trackers.value = some trackers → IsListing trackers
  /-- The single one. -/
  update : ∀ u, s.update.value = some u → u.tracker.IsConsistent

namespace Session

variable {σ : Type} {s s' : Session σ}

theorem isSound_start (storage : σ) : (start storage).IsSound where
  listing _ h := nomatch h
  update _ h := nomatch h

/-- Whatever else changes in a session does not matter. -/
theorem IsSound.congr (h : s.IsSound) (htrackers : s'.trackers = s.trackers)
    (hupdate : s'.update = s.update) : s'.IsSound where
  listing := by
    rw [htrackers]
    exact h.listing
  update := by
    rw [hupdate]
    exact h.update

theorem IsSound.clearUpdate (h : s.IsSound) : s.clearUpdate.IsSound where
  listing := h.listing
  update _ hnone := nomatch hnone

/-- The trackers of a scan are published. -/
theorem IsSound.publish (h : s.IsSound) {report : ScanReport} (hreport : IsListing report.trackers) :
    (s.publish report).IsSound where
  listing trackers hvalue := by
    obtain rfl := Option.some.inj hvalue
    exact hreport
  update u hvalue := by
    refine h.update u ?_
    rw [← hvalue]
    unfold Session.publish
    split <;> rfl

/-- A single tracker is published. -/
theorem IsSound.publishUpdate (h : s.IsSound) {u : TrackerUpdate} (hu : u.tracker.IsConsistent) :
    (s.publishUpdate u).IsSound where
  listing trackers hvalue := by
    have hchanges := u.changes_publishUpdate s
    generalize (s.publishUpdate u).trackers = slot at hchanges hvalue
    cases hchanges with
    | inPlace hlist hplace hkey =>
      obtain rfl := Option.some.inj hvalue
      exact (h.listing _ hlist).set hplace hkey hu
    | elsewhere => exact h.listing trackers hvalue
  update v hvalue := by
    obtain rfl := Option.some.inj hvalue
    exact hu

end Session

namespace Monitor

open RuleStore

variable {σ : Type} [Storage σ] {m : Monitor σ} {s : Session σ}

theorem Searched.isSound {result : Except MonitorError ScanReport × Session σ}
    (h : Searched m s result) (hs : s.IsSound) : result.2.IsSound := by
  cases h with
  | unresolved => exact hs.congr rfl rfl
  | found hsurvey =>
    refine Session.IsSound.publish ?_ (isListing_survey hsurvey)
    exact hs.congr rfl rfl

theorem Passage.isSound {position : Option Nat} {c : Call}
    {result : Except MonitorError Outcome × Session σ} (h : Passage m position c s result)
    (hs : s.IsSound) : result.2.IsSound := by
  cases h with
  | unprivileged => exact hs.congr rfl rfl
  | refused => exact hs.congr rfl rfl
  | missing => exact hs.congr rfl rfl
  | @updated _ _ t _ _ _ hcall hchanged =>
    have ht : t.IsConsistent := isConsistent_of_carryOut hcall hchanged t List.mem_cons_self
    refine Session.IsSound.publishUpdate ?_ ht
    exact hs.congr rfl rfl
  | rescanned _ _ _ hscan => exact hscan.isSound (hs.congr rfl rfl)

/-- Looking at the rule document publishes no trackers. -/
theorem isSound_readRules (m : Monitor σ) (hs : s.IsSound) : (m.readRules s).2.IsSound := by
  unfold readRules
  split
  · exact hs.congr rfl rfl
  · split
    · exact hs.congr rfl rfl
    · exact hs.congr rfl rfl

/-- What is published stays sound, whatever happens. -/
theorem isSound_react (m : Monitor σ) (hs : s.IsSound) (event : Event σ) :
    (m.react s event).IsSound := by
  cases event with
  | outside change => exact hs.congr rfl rfl
  | request source r =>
    cases r with
    | scan => exact (searched_scan _ s).isSound hs
    | scanFor keyword => exact (searched_scan _ _).isSound (hs.congr rfl rfl)
    | change c position => exact (passage_carryOut _ position c s).isSound hs
    | readRules => exact isSound_readRules _ hs
    | clearUpdate => exact hs.clearUpdate
    | clearWarning => exact hs.congr rfl rfl

/-- What is published is sound at all times: whatever is asked, whatever trackers and places are
given with it, and whatever happens to the rule file. -/
theorem isSound_run (m : Monitor σ) (storage : σ) (events : List (Event σ)) :
    (m.run (.start storage) events).IsSound :=
  run_of_react (P := Session.IsSound) (fun _ event _ hs => m.isSound_react hs event)
    (Session.isSound_start storage)

end Monitor
end IntentFirewall
