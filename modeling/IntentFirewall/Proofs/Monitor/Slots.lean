import IntentFirewall.Proofs.Monitor.Requests

/-!
# What a monitor publishes

A session has three slots: the list of trackers, the last single tracker that has changed, and the
last warning. Every request keeps to the same rules about them, whatever the storage does and
wherever the components come from.

* `TrackerUpdate.Changes`: what a single tracker that has changed does to the list.
* `Monitor.Step.IsDisciplined`: the rules, for each slot what it holds behind a request.
* `Monitor.isDisciplined_of_mem_steps`: every request of every run keeps to them.
-/

namespace IntentFirewall

/-- What publishing a single tracker that has changed does to the list. -/
inductive TrackerUpdate.Changes (u : TrackerUpdate) (list : Slot (List Tracker)) :
    Slot (List Tracker) → Prop
  /-- The entry at its place stands for the same component, and is replaced. -/
  | inPlace {trackers : List Tracker} {t : Tracker} (hlist : list.value = some trackers)
      (hplace : trackers[u.position]? = some t) (hkey : t.key = u.tracker.key) :
    Changes u list (list.put (trackers.set u.position u.tracker))
  /-- No entry at its place stands for the same component, and nothing changes. -/
  | elsewhere
      (hkey : ∀ trackers t, list.value = some trackers → trackers[u.position]? = some t →
        t.key ≠ u.tracker.key) :
    Changes u list list

theorem Tracker.sameComponent_iff {t u : Tracker} : t.sameComponent u = true ↔ t.key = u.key := by
  simp [sameComponent, key]

/-- A single tracker changes the list where it is said to be, and nowhere else. -/
theorem TrackerUpdate.changes_publishUpdate {σ : Type} (u : TrackerUpdate) (s : Session σ) :
    u.Changes s.trackers (s.publishUpdate u).trackers := by
  unfold Session.publishUpdate Slot.update
  dsimp only
  split
  next trackers happly =>
    obtain ⟨list, hlist, happly⟩ := Option.bind_eq_some_iff.1 happly
    unfold applyTo? at happly
    split at happly
    next t hplace =>
      split at happly
      next hsame =>
        obtain rfl := Option.some.inj happly
        exact .inPlace hlist hplace (Tracker.sameComponent_iff.1 hsame)
      next => simp at happly
    next => simp at happly
  next happly =>
    -- An entry for the component would have been found there.
    apply Changes.elsewhere
    intro trackers t hlist hplace hkey
    rw [hlist, Option.bind_some, applyTo?, hplace] at happly
    simp [Tracker.sameComponent_iff.2 hkey] at happly

namespace Monitor

open RuleStore

variable {σ : Type}

/-- What a reply says about the list of trackers: a scan publishes those that it reports. -/
def Reply.Lists (before after : Slot (List Tracker)) : Reply → Prop
  | scanned report | changed (.rescanned report) => after.value = some report.trackers
  | changed (.updated u) => u.Changes before after
  | _ => after = before

/-- What a reply says about the single tracker. -/
def Reply.Singles (before after : Slot TrackerUpdate) : Reply → Prop
  | changed (.updated u) => after.value = some u
  | updateCleared => after.value = none
  | _ => after = before

/-- What a reply says about the warning: a scan without trackers and a missing rule file are worth
one. -/
def Reply.Warns (before after : Slot Warning) : Reply → Prop
  | scanned report | changed (.rescanned report) =>
    if report.trackers = [] then after.value = some .noTrackers else after = before
  | changed .noRulesFile => after.value = some .noRulesFile
  | warningCleared => after.value = none
  | _ => after = before

/-- The rules that a request keeps to. One that fails leaves the trackers alone, and its error is
the last warning; one that succeeds publishes what its reply says, and nothing else. -/
def Step.IsDisciplined (t : Step σ) : Prop :=
  match t.result with
  | .error e =>
    t.after.trackers = t.before.trackers ∧ t.after.update = t.before.update ∧
      t.after.warning.value = some (.failure e.message)
  | .ok reply =>
    reply.Lists t.before.trackers t.after.trackers ∧ reply.Singles t.before.update t.after.update ∧
      reply.Warns t.before.warning t.after.warning

variable [Storage σ] {m : Monitor σ} {s : Session σ} {r : Request}

/-- A scan keeps to the rules, whether it was asked for or follows a call. -/
theorem Searched.isDisciplined {tell : ScanReport → Reply}
    (htell : tell = .scanned ∨ tell = fun report => .changed (.rescanned report))
    {result : Except MonitorError ScanReport × Session σ} (h : Searched m s result)
    {before : Session σ} (htrackers : s.trackers = before.trackers)
    (hupdate : s.update = before.update) (hwarning : s.warning = before.warning) :
    Step.IsDisciplined ⟨before, r, result.1.map tell, result.2⟩ := by
  cases h with
  | unresolved => exact ⟨htrackers, hupdate, rfl⟩
  | @found report storage _ =>
    have hlist : ({ s with storage }.publish report).trackers.value = some report.trackers := rfl
    have hsingle : ({ s with storage }.publish report).update = before.update := by
      rw [← hupdate]
      unfold Session.publish
      split <;> rfl
    have hwarn : if report.trackers = [] then
        ({ s with storage }.publish report).warning.value = some .noTrackers
        else ({ s with storage }.publish report).warning = before.warning := by
      rw [← hwarning]
      unfold Session.publish
      cases report.trackers <;> rfl
    rcases htell with rfl | rfl
    · exact ⟨hlist, hsingle, hwarn⟩
    · exact ⟨hlist, hsingle, hwarn⟩

/-- A call keeps to the rules. -/
theorem Passage.isDisciplined {position : Option Nat} {c : Call}
    {result : Except MonitorError Outcome × Session σ} (h : Passage m position c s result) :
    Step.IsDisciplined ⟨s, r, result.1.map .changed, result.2⟩ := by
  cases h with
  | unprivileged => exact ⟨rfl, rfl, rfl⟩
  | refused => exact ⟨rfl, rfl, rfl⟩
  | missing => exact ⟨rfl, rfl, rfl⟩
  | updated => exact ⟨TrackerUpdate.changes_publishUpdate _ _, rfl, rfl⟩
  | @rescanned _ _ _ _ result _ _ _ hscan =>
    -- The result of the scan is told twice over: as an outcome, and as a reply.
    have hmap : (result.1.map .rescanned).map Reply.changed =
        result.1.map fun report => .changed (.rescanned report) := by
      cases result.1 <;> rfl
    rw [hmap]
    exact hscan.isDisciplined (.inr rfl) rfl rfl rfl

/-- Reading the rule document keeps to the rules. -/
theorem isDisciplined_readRules (m : Monitor σ) (s : Session σ) :
    Step.IsDisciplined ⟨s, r, (m.readRules s).1.map .rules, (m.readRules s).2⟩ := by
  unfold readRules
  split
  · exact ⟨rfl, rfl, rfl⟩
  · split
    · exact ⟨rfl, rfl, rfl⟩
    · exact ⟨rfl, rfl, rfl⟩

/-- Every request keeps to the rules, whatever state the session is in. -/
theorem isDisciplined_stepOf (m : Monitor σ) (s : Session σ) (source : ComponentSource σ)
    (r : Request) : (m.stepOf s source r).IsDisciplined := by
  cases r with
  | scan => exact (searched_scan _ s).isDisciplined (.inl rfl) rfl rfl rfl
  | scanFor keyword => exact (searched_scan _ _).isDisciplined (.inl rfl) rfl rfl rfl
  | change c position => exact (passage_carryOut _ position c s).isDisciplined
  | readRules => exact isDisciplined_readRules _ s
  | clearUpdate => exact ⟨rfl, rfl, rfl⟩
  | clearWarning => exact ⟨rfl, rfl, rfl⟩

/-- Every request of every run keeps to the rules. -/
theorem isDisciplined_of_mem_steps {events : List (Event σ)} {t : Step σ}
    (ht : t ∈ m.steps s events) : t.IsDisciplined :=
  of_mem_steps m.isDisciplined_stepOf t ht

/-- Blocking ends in a scan that cannot find the components, and what had been published before is
still there. -/
theorem isDisciplined_of_mem_steps_unresolved :
    let tracker : Tracker := ⟨"com.t.Ad", .activity, "T", none, "ads", false, false, true, false⟩
    let found : ComponentSource (Unreliable Memory) := fun package _ =>
      .ok ⟨package.packageName, [⟨.activity, "com.t.Ad", false, true⟩]⟩
    let gone : ComponentSource (Unreliable Memory) := fun package _ =>
      .error (.unresolved package.packageName "gone")
    let m : Monitor (Unreliable Memory) := ⟨⟨"com.app", none⟩,
      ⟨[⟨none, "T", ["com.t."], "ads", none⟩], [⟨"com.t.", 0, ⟨none, "T", ["com.t."], "ads", none⟩⟩]⟩,
      found, some ⟨"/ifw"⟩⟩
    let s := Session.start (Unreliable.reliable Memory.empty)
    let first := m.stepOf s found .scan
    let second := m.stepOf first.after gone (.change (.block [tracker]) none)
    second ∈ m.steps s [.request found .scan, .request gone (.change (.block [tracker]) none)] ∧
      second.before.trackers.value = some [tracker] ∧
      second.after.trackers = second.before.trackers ∧
      second.after.warning.value = some (.failure
        "Component error: Could not resolve components for package com.app: gone") := by
  intro tracker found gone m s first second
  have hmem : second ∈
      m.steps s [.request found .scan, .request gone (.change (.block [tracker]) none)] :=
    List.mem_cons_of_mem first List.mem_cons_self
  have hbefore : second.before.trackers.value = some [tracker] := by decide +kernel
  have hresult : second.result = .error (.components (.unresolved "com.app" "gone")) := by
    decide +kernel
  have hstep := isDisciplined_of_mem_steps hmem
  rw [Step.IsDisciplined, hresult] at hstep
  exact ⟨hmem, hbefore, hstep.1, hstep.2.2.trans (by decide)⟩

end Monitor
end IntentFirewall
