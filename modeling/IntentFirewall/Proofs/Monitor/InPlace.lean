import IntentFirewall.Monitor.Run
import IntentFirewall.Proofs.Rules.Reload
import IntentFirewall.Proofs.Tracker.Report
import Mathlib.Data.List.Nodup

/-!
# Changes in place

Blocking a single tracker whose place in the list is known changes the list there and nowhere else.
The rule file may say something new about other trackers as well: a filter does not tell the kind
of its component, and a rule element that gets a filter stops logging. So the list is what a scan
would find exactly if this concerns no other tracker in it.

* `Monitor.scan_eq`: what a scan finds, as a function of the document in the rule file.
* `RuleStore.stateIn_edit_self`, `RuleStore.stateIn_edit_eq_iff`: what a call for a single tracker
  does to the states of trackers.
* `Monitor.scan_carryOut_iff`: exactly when the list that is published behind such a call is the one
  that a scan finds then.
-/

namespace IntentFirewall

/-! ## Lists of trackers -/

namespace Tracker

variable {t : Tracker} {a b : Option Bool}

theorem isBlocked_withState_eq_false_iff : (t.withState a).isBlocked = false ↔ a = none := by
  simp [withState]

theorem isLogged_withState_iff : (t.withState a).isLogged = true ↔ a = some true := by
  cases a <;> simp [withState]

/-- The flags of a tracker tell its state. -/
theorem withState_inj : t.withState a = t.withState b ↔ a = b := by
  refine ⟨fun h => ?_, fun h => h ▸ rfl⟩
  obtain ⟨hblocked, hlogged⟩ : a.isSome = b.isSome ∧ a.getD false = b.getD false := by
    simpa [withState] using h
  cases a <;> cases b <;> simp_all

end Tracker

/-- Without a keyword, trackers in order are reported as they are found. -/
theorem SignatureDatabase.report_eq {db : SignatureDatabase} {components : List Component}
    {trackers : List Tracker} (hfound : db.found components = trackers)
    (hsorted : trackers.Pairwise fun a b => a.le b = true) :
    db.report components "" = ⟨trackers, components.length, trackers.length⟩ := by
  have hkeyword : Text.lowercase "" = "" := by decide +kernel
  rw [report, hfound, filterBy, if_pos hkeyword, List.mergeSort_of_pairwise hsorted]

/-- Changing one entry of a list makes up for a change of the state of all of them exactly if it
concerns no entry with another key. -/
theorem set_map_eq_map_iff {α β κ : Type} {f g : α → β} {key : α → κ} {l : List α} {a : α} {p : Nat}
    (hkeys : (l.map key).Nodup) (hp : l[p]? = some a) :
    (l.map f).set p (g a) = l.map g ↔ ∀ b ∈ l, key b ≠ key a → f b = g b := by
  induction l generalizing p with
  | nil => simp at hp
  | cons b rest ih =>
    rw [List.map_cons, List.nodup_cons] at hkeys
    obtain ⟨hb, hrest⟩ := hkeys
    cases p with
    | zero =>
      obtain rfl : b = a := by simpa using hp
      have hne (c : α) (hc : c ∈ rest) : key c ≠ key b := fun heq =>
        hb (heq ▸ List.mem_map_of_mem hc)
      rw [List.map_cons, List.map_cons, List.set_cons_zero, List.cons_inj_right, List.map_inj_left,
        List.forall_mem_cons]
      refine ⟨fun h => ⟨fun hself => absurd rfl hself, fun c hc _ => h c hc⟩,
        fun h c hc => h.2 c hc (hne c hc)⟩
    | succ p =>
      have hp : rest[p]? = some a := by simpa using hp
      have hne : key b ≠ key a := fun heq =>
        hb (heq ▸ List.mem_map_of_mem (List.mem_of_getElem? hp))
      rw [List.map_cons, List.map_cons, List.set_cons_succ, List.cons.injEq, ih hrest hp,
        List.forall_mem_cons]
      exact and_congr_left' ⟨fun h _ => h, fun h => h hne⟩

/-! ## Scans -/

namespace Monitor

open RuleStore

/-- The report of a scan that finds components and a rule document. -/
def reportOn (m : Monitor Memory) (found : PackageComponents) (keyword : String) (d : Document) :
    ScanReport :=
  let report := m.signatures.report found.components keyword
  ⟨m.package.packageName,
    report.trackers.map fun t => t.withState (stateIn m.package.packageName (some d) t),
    report.scanned, report.matched, keyword, none⟩

variable {m : Monitor Memory} {store : RuleStore} {s s' : Session Memory}

/-- A scan gives every tracker the state that the rule file gives it. -/
theorem scan_eq (hrules : m.rules = some store) (hname : isPackageName m.package.packageName = true)
    (hdenied : s.storage.denied = false) {found : PackageComponents}
    (hfound : m.source m.package s.storage = .ok found) {d : Document}
    (hdocument : store.document m.package.packageName s.storage = .ok d) :
    m.scan s = (.ok (m.reportOn found s.keyword d), s.publish (m.reportOn found s.keyword d)) := by
  simp only [scan, survey, hfound, withRuleState, hrules, store.applyState_eq hname hdenied,
    hdocument]
  rfl

/-- A scan succeeds only if the components of the package are found. -/
theorem exists_source_of_scan {report : ScanReport} (h : m.scan s = (.ok report, s')) :
    ∃ found, m.source m.package s.storage = .ok found := by
  cases hfound : m.source m.package s.storage with
  | error e => simp [scan, survey, hfound, Session.fail] at h
  | ok found => exact ⟨found, rfl⟩

end Monitor

/-! ## Calls for a single tracker -/

namespace RuleStore

/-- The trackers that a call is about. -/
def Call.trackers : Call → List Tracker
  | block trackers => trackers
  | unblock trackers => trackers

/-- The state that a call reports of its trackers. -/
def Call.state : Call → Option Bool
  | block _ => some false
  | unblock _ => none

variable {packageName : String} {c : Call} {t w : Tracker} {d : Document}

theorem edit_block_singleton {tag : RuleTag} (htag : RuleTag.forKind? t.kind = some tag)
    (d : Document) :
    (Call.block [t]).edit packageName d = d.block tag (t.filterName packageName) := by
  simp [Call.edit, ruleEntries, htag, blocked]

theorem stateIn_normal (packageName : String) (d : Document) (t : Tracker) :
    stateIn packageName (some d.normal) t = stateIn packageName (some d) t := by
  cases htag : RuleTag.forKind? t.kind with
  | none => simp only [stateIn, htag]
  | some tag => simp only [stateIn, htag, Document.blockingState_normal]

/-- A call reports the state that its tracker has then, if there is a rule element for it. -/
theorem stateIn_edit_self (packageName : String) (hc : c.trackers = [t])
    (hblockable : c = .block [t] → (RuleTag.forKind? t.kind).isSome = true) (d : Document) :
    stateIn packageName (some (c.edit packageName d)) t = c.state := by
  cases c with
  | block trackers =>
    obtain rfl : trackers = [t] := hc
    obtain ⟨tag, htag⟩ := Option.isSome_iff_exists.1 (hblockable rfl)
    rw [edit_block_singleton htag]
    simp only [stateIn, htag, Document.blockingState_block_self, if_pos]
    rfl
  | unblock trackers =>
    obtain rfl : trackers = [t] := hc
    cases htag : RuleTag.forKind? t.kind with
    | none => simp only [stateIn, htag]; rfl
    | some tag =>
      simp only [stateIn, htag]
      exact d.blockingState_withoutFilters_self tag (t.filterName packageName)

/-- Whether a call for a listed tracker `t` alone keeps the state of another one, `w`. -/
structure Call.Spares (c : Call) (packageName : String) (d : Document) (t w : Tracker) : Prop where
  /-- A tracker of another kind with the same name is not blocked. It has the filter of `t`. -/
  namesake : w.componentName = t.componentName → w.kind ≠ t.kind → w.isBlocked = false
  /-- A tracker of the same kind whose rule logs is not in the element that `t` is blocked by. This
  element stops logging. -/
  logging : c = .block [t] → w.kind = t.kind → w.componentName ≠ t.componentName →
    w.isLogged = true → ∀ tag, RuleTag.forKind? t.kind = some tag →
      ∀ set, d.ruleSets.find? (RuleSet.blocks tag) = some set →
        w.filterName packageName ∉ set.filters

theorem Call.spares_of_key_eq (h : w.key = t.key) : c.Spares packageName d t w := by
  obtain ⟨hkind, hname⟩ := Prod.mk.inj h
  exact ⟨fun _ hne => absurd hkind hne, fun _ _ hne => absurd hname hne⟩

/-- A call for a single tracker leaves no trackers of other kinds with its name in the rule file. -/
theorem stateIn_edit_of_namesake (hc : c.trackers = [t])
    (hblockable : c = .block [t] → (RuleTag.forKind? t.kind).isSome = true)
    (hname : w.componentName = t.componentName) (hkind : w.kind ≠ t.kind) (d : Document) :
    stateIn packageName (some (c.edit packageName d)) w = none := by
  have hfilter : w.filterName packageName = t.filterName packageName := by
    rw [Tracker.filterName, Tracker.filterName, hname]
  cases hother : RuleTag.forKind? w.kind with
  | none => simp only [stateIn, hother]
  | some other =>
    cases c with
    | block trackers =>
      obtain rfl : trackers = [t] := hc
      obtain ⟨tag, htag⟩ := Option.isSome_iff_exists.1 (hblockable rfl)
      have hne : other ≠ tag := by
        rintro rfl
        exact hkind (RuleTag.forKind?_inj hother htag)
      rw [edit_block_singleton htag]
      simp only [stateIn, hother]
      rw [hfilter, Document.blockingState_block_self, if_neg hne]
    | unblock trackers =>
      obtain rfl : trackers = [t] := hc
      simp only [stateIn, hother]
      rw [hfilter]
      exact d.blockingState_withoutFilters_self other (t.filterName packageName)

/-- A call for a single tracker changes the state of a tracker with another name exactly if it stops
the logging of its rule. -/
theorem stateIn_edit_eq_iff_of_ne (hc : c.trackers = [t])
    (hblockable : c = .block [t] → (RuleTag.forKind? t.kind).isSome = true)
    (hname : w.componentName ≠ t.componentName) (d : Document) :
    stateIn packageName (some (c.edit packageName d)) w = stateIn packageName (some d) w ↔
      (c = .block [t] → w.kind = t.kind → stateIn packageName (some d) w = some true →
        ∀ tag, RuleTag.forKind? t.kind = some tag →
          ∀ set, d.ruleSets.find? (RuleSet.blocks tag) = some set →
            w.filterName packageName ∉ set.filters) := by
  have hfilter : w.filterName packageName ≠ t.filterName packageName := fun heq =>
    hname (filterName_injective packageName heq)
  cases hother : RuleTag.forKind? w.kind with
  | none => simp [stateIn, hother]
  | some other =>
    cases c with
    | block trackers =>
      obtain rfl : trackers = [t] := hc
      obtain ⟨tag, htag⟩ := Option.isSome_iff_exists.1 (hblockable rfl)
      have htags : other = tag ↔ w.kind = t.kind := by
        constructor
        · rintro rfl
          exact RuleTag.forKind?_inj hother htag
        · intro hkind
          rw [hkind, htag] at hother
          exact (Option.some.inj hother).symm
      rw [edit_block_singleton htag]
      simp only [stateIn, hother]
      rw [Document.blockingState_block_eq_iff hfilter, htags, htag]
      simp
    | unblock trackers =>
      obtain rfl : trackers = [t] := hc
      simp only [stateIn, hother]
      exact iff_of_true (d.blockingState_withoutFilters_of_ne hfilter other) (by simp)

/-- A call for a single tracker keeps the state of another one exactly if it spares it. -/
theorem stateIn_edit_eq_iff (hc : c.trackers = [t])
    (hblockable : c = .block [t] → (RuleTag.forKind? t.kind).isSome = true)
    (hkey : w.key ≠ t.key) (d : Document) :
    stateIn packageName (some (c.edit packageName d)) w = stateIn packageName (some d) w ↔
      c.Spares packageName d t (w.withState (stateIn packageName (some d) w)) := by
  by_cases hname : w.componentName = t.componentName
  · have hkind : w.kind ≠ t.kind := fun hkind => hkey (Prod.ext hkind hname)
    rw [stateIn_edit_of_namesake hc hblockable hname hkind, eq_comm,
      ← Tracker.isBlocked_withState_eq_false_iff (t := w)]
    exact ⟨fun h => ⟨fun _ _ => h, fun _ _ hne => absurd hname hne⟩,
      fun h => h.namesake hname hkind⟩
  · rw [stateIn_edit_eq_iff_of_ne hc hblockable hname, ← Tracker.isLogged_withState_iff (t := w)]
    exact ⟨fun h => ⟨fun heq => absurd heq hname, fun hblock hkind _ => h hblock hkind⟩,
      fun h hblock hkind => h.logging hblock hkind hname⟩

end RuleStore

/-! ## Monitors -/

namespace Monitor

open RuleStore

/-- Carries out a call on the rule file of the package. -/
def carryOut {σ : Type} [Storage σ] (m : Monitor σ) (position : Option Nat) :
    Call → Session σ → Except MonitorError Outcome × Session σ
  | .block trackers, s => m.block trackers position s
  | .unblock trackers, s => m.unblock trackers position s

variable {m : Monitor Memory} {store : RuleStore} {s s' : Session Memory} {c : Call} {t : Tracker}
  {p : Nat} {u : TrackerUpdate}

/-- A call that changes a tracker in place has edited the document in the rule file, and publishes
the tracker with the state that the call reports. -/
theorem exists_of_carryOut_updated (hrules : m.rules = some store) (hc : c.trackers = [t])
    (hcall : m.carryOut (some p) c s = (.ok (.updated u), s')) :
    (c = .block [t] → (RuleTag.forKind? t.kind).isSome = true) ∧
      isPackageName m.package.packageName = true ∧ s.storage.denied = false ∧
      ∃ d, store.document m.package.packageName s.storage = .ok d ∧
        s' = Session.publishUpdate ⟨t.withState c.state, p⟩ { s with
          storage := s.storage.rewritten (store.rulesFile m.package.packageName)
            (c.edit m.package.packageName d).toBytes } := by
  cases c with
  | block trackers =>
    obtain rfl : trackers = [t] := hc
    rw [carryOut, block, hrules] at hcall
    cases hblock : store.block m.package.packageName [t] s.storage with
    | mk result storage =>
      cases result with
      | error e => simp [hblock, Session.fail] at hcall
      | ok out =>
        obtain ⟨hname, hwritable⟩ := allowed_of_block (by simp) hblock
        obtain ⟨entries, d, hentries, hdocument, rfl, rfl⟩ := exists_of_block hname (by simp) hblock
        have hblockable : (RuleTag.forKind? t.kind).isSome = true := by
          cases htag : RuleTag.forKind? t.kind with
          | none => simp [ruleEntries, htag] at hentries
          | some tag => rfl
        obtain ⟨-, rfl⟩ : _ ∧ _ = s' := by simpa [hblock, finish] using hcall
        refine ⟨fun _ => hblockable, hname, (Memory.isWritable_iff.1 hwritable).1, d, hdocument, ?_⟩
        simp [Call.edit, hentries, Call.state]
  | unblock trackers =>
    obtain rfl : trackers = [t] := hc
    rw [carryOut, unblock, hrules] at hcall
    cases hunblock : store.unblock m.package.packageName [t] s.storage with
    | mk result storage =>
      cases result with
      | error e => simp [hunblock, Session.fail] at hcall
      | ok outcome =>
        cases outcome with
        | noRulesFile => simp [hunblock] at hcall
        | done out =>
          obtain ⟨d, hdocument, rfl, rfl⟩ := exists_of_unblock hunblock
          obtain ⟨-, rfl⟩ : _ ∧ _ = s' := by simpa [hunblock, finish] using hcall
          obtain ⟨hname, hwritable⟩ := allowed_of_unblock hunblock
          exact ⟨by simp, hname, (Memory.isWritable_iff.1 hwritable).1, d, hdocument, rfl⟩

/-- A call for a single tracker at a known place changes it there, if the rule file holds a rule
document and can be written. -/
theorem carryOut_eq_updated (hrules : m.rules = some store)
    (hname : isPackageName m.package.packageName = true) (hwritable : s.storage.isWritable = true)
    (hc : c.trackers = [t]) (hblockable : c = .block [t] → (RuleTag.forKind? t.kind).isSome = true)
    (hexisting : c = .unblock [t] →
      (s.storage.contents? (store.rulesFile m.package.packageName)).isSome = true) {d : Document}
    (hdocument : store.document m.package.packageName s.storage = .ok d) (p : Nat) :
    m.carryOut (some p) c s = (.ok (.updated ⟨t.withState c.state, p⟩),
      Session.publishUpdate ⟨t.withState c.state, p⟩ { s with
        storage := s.storage.rewritten (store.rulesFile m.package.packageName)
          (c.edit m.package.packageName d).toBytes }) := by
  cases c with
  | block trackers =>
    obtain rfl : trackers = [t] := hc
    obtain ⟨tag, htag⟩ := Option.isSome_iff_exists.1 (hblockable rfl)
    have hentries : ruleEntries m.package.packageName [t] =
        .ok [(tag, t.filterName m.package.packageName)] := by
      simp [ruleEntries, htag]
    simp only [carryOut, block, hrules, store.block_eq hname hwritable hentries (by simp),
      hdocument, Call.edit, hentries]
    rfl
  | unblock trackers =>
    obtain rfl : trackers = [t] := hc
    simp only [carryOut, unblock, hrules, store.unblock_eq hname hwritable, hexisting rfl,
      if_true, hdocument]
    rfl

/-- What is published behind a change in place, if the tracker is where it is said to be. -/
theorem value_publishUpdate {trackers : List Tracker}
    (hpublished : s.trackers.value = some trackers) (hp : trackers[p]? = some t)
    (state : Option Bool) :
    (s.publishUpdate ⟨t.withState state, p⟩).trackers.value =
      some (trackers.set p (t.withState state)) := by
  have hsame : t.sameComponent (t.withState state) = true := by
    simp [Tracker.sameComponent, Tracker.withState]
  have happly : s.trackers.value.bind (TrackerUpdate.applyTo? ⟨t.withState state, p⟩) =
      some (trackers.set p (t.withState state)) := by
    rw [hpublished, Option.bind_some, TrackerUpdate.applyTo?]
    simp only [hp, hsame, if_true]
  simp only [Session.publishUpdate, Slot.update, happly, Slot.value_put]

/-- The list of a report in which the tracker that a call is about gets its new state is the list of
the report on the edited document exactly if the call spares all trackers in the list. -/
theorem set_reportOn_eq_iff {found : PackageComponents} {keyword : String} {d : Document}
    (hc : c.trackers = [t])
    (hblockable : c = .block [t] → (RuleTag.forKind? t.kind).isSome = true)
    (hp : (m.reportOn found keyword d).trackers[p]? = some t) :
    (m.reportOn found keyword d).trackers.set p (t.withState c.state) =
        (m.reportOn found keyword (c.edit m.package.packageName d).normal).trackers ↔
      ∀ w ∈ (m.reportOn found keyword d).trackers, c.Spares m.package.packageName d t w := by
  obtain ⟨a, ha, rfl⟩ : ∃ a, (m.signatures.report found.components keyword).trackers[p]? = some a ∧
      a.withState (stateIn m.package.packageName (some d) a) = t := by
    simpa [reportOn] using hp
  -- Both lists are those without states, each tracker with its state before or behind the call.
  have hset := set_map_eq_map_iff
    (f := fun b => b.withState (stateIn m.package.packageName (some d) b))
    (g := fun b => b.withState (stateIn m.package.packageName
      (some (c.edit m.package.packageName d)) b))
    (m.signatures.nodup_key_report found.components keyword) ha
  simp only [reportOn, stateIn_normal, List.forall_mem_map]
  rw [← stateIn_edit_self m.package.packageName hc hblockable d]
  refine hset.trans (forall₂_congr fun b _ => ?_)
  by_cases hkey : b.key = a.key
  · exact iff_of_true (fun hne => absurd hkey hne) (Call.spares_of_key_eq hkey)
  · rw [Tracker.withState_inj, eq_comm, stateIn_edit_eq_iff hc hblockable hkey, imp_iff_right hkey]

/-- A monitor with a list of trackers as a scan finds them carries out a call for the one at a known
place, and changes it there. Behind that call a scan succeeds and reads the rule file, if this can
be read back at all. It finds the list that is published then exactly if the call has spared all
trackers in the list. -/
theorem scan_carryOut_iff {report : ScanReport} {s₀ : Session Memory} {d : Document}
    (hrules : m.rules = some store) (hscan : m.scan s = (.ok report, s₀))
    (hpublished : s.trackers.value = some report.trackers)
    (hdocument : store.document m.package.packageName s.storage = .ok d)
    (hp : report.trackers[p]? = some t) (hc : c.trackers = [t])
    (hcall : m.carryOut (some p) c s = (.ok (.updated u), s'))
    (hdelimited : (c.edit m.package.packageName d).IsDelimited)
    (hsource : m.source m.package s'.storage = m.source m.package s.storage) :
    ∃ later s'', m.scan s' = (.ok later, s'') ∧ later.ruleFailure = none ∧
      (s'.trackers.value = some later.trackers ↔
        ∀ w ∈ report.trackers, c.Spares m.package.packageName d t w) := by
  obtain ⟨hblockable, hname, hdenied, d', hd', hs'⟩ := exists_of_carryOut_updated hrules hc hcall
  obtain rfl : d = d' := Except.ok.inj (hdocument.symm.trans hd')
  obtain ⟨found, hfound⟩ := exists_source_of_scan hscan
  obtain rfl : m.reportOn found s.keyword d = report := by
    rw [scan_eq hrules hname hdenied hfound hdocument] at hscan
    exact Except.ok.inj (congrArg Prod.fst hscan)
  -- The second scan finds the same components and reads what the call has written.
  have hreadable :=
    c.isReadable_edit m.package.packageName (Document.isReadable_of_ofBytes hdocument)
  have hwritten : store.document m.package.packageName s'.storage =
      .ok (c.edit m.package.packageName d).normal := by
    rw [hs', ← (Document.ofBytes_toBytes_iff hreadable).2 hdelimited, ← document_rewritten_eq]
    rfl
  have hdenied' : s'.storage.denied = false := by
    rw [hs']
    exact hdenied
  have hkeyword : s'.keyword = s.keyword := by
    rw [hs']
    rfl
  have hlist : s'.trackers.value =
      some ((m.reportOn found s.keyword d).trackers.set p (t.withState c.state)) := by
    rw [hs']
    exact value_publishUpdate hpublished hp c.state
  refine ⟨_, _, scan_eq hrules hname hdenied' (hsource.trans hfound) hwritten, rfl, ?_⟩
  rw [hlist, Option.some.injEq, hkeyword]
  exact set_reportOn_eq_iff hc hblockable hp

/-- No rule of the listed trackers logs, and no two of them have one name. -/
theorem scan_carryOut_iff_block :
    let store : RuleStore := ⟨"/ifw"⟩
    let found : PackageComponents :=
      ⟨"com.app", [⟨.activity, "com.t.Ad", false, true⟩, ⟨.activity, "com.t.Up", false, true⟩]⟩
    let m : Monitor Memory := ⟨⟨"com.app", none⟩, ⟨[⟨none, "T", ["com.t."], "ads", none⟩],
      [⟨"com.t.", 0, ⟨none, "T", ["com.t."], "ads", none⟩⟩]⟩, fun _ _ => .ok found, some store⟩
    let d : Document :=
      ⟨[], .element "activity" [("block", "true")] (.ofFilter "com.app/com.t.Up") .nil⟩
    let t : Tracker := ⟨"com.t.Ad", .activity, "T", none, "ads", false, false, true, false⟩
    let u : Tracker := ⟨"com.t.Up", .activity, "T", none, "ads", true, false, true, false⟩
    let report : ScanReport := ⟨"com.app", [t, u], 2, 2, "", none⟩
    let s := Session.publish report
      (.start (Memory.empty.rewritten (store.rulesFile "com.app") d.toBytes))
    let s' := (m.block [t] (some 0) s).2
    (m.scan s = (.ok report, s.publish report) ∧
      m.block [t] (some 0) s = (.ok (.updated ⟨t.withState (some false), 0⟩), s')) ∧
      ∃ later s'', m.scan s' = (.ok later, s'') ∧ later.ruleFailure = none ∧
        s'.trackers.value = some later.trackers := by
  intro store found m d t u report s s'
  have hnamed : d.IsWellNamed :=
    ⟨by decide, by decide, by decide, Xml.Content.isWellNamed_ofFilter _, trivial⟩
  have hdocument : store.document "com.app" s.storage = .ok d :=
    store.document_rewritten hnamed.isReadable hnamed.isSealed
  have hmatches : m.signatures.report found.components "" =
      ⟨[t.withState none, u.withState none], 2, 2⟩ :=
    SignatureDatabase.report_eq (by decide +kernel) (by decide +kernel)
  have hreport : m.reportOn found s.keyword d = report := by
    change m.reportOn found "" d = report
    rw [reportOn, hmatches]
    decide
  have hscan : m.scan s = (.ok report, s.publish report) := by
    rw [← hreport]
    exact scan_eq (m := m) rfl (by decide) rfl rfl hdocument
  have hcall : m.carryOut (some 0) (.block [t]) s =
      (.ok (.updated ⟨t.withState (some false), 0⟩), s') := by
    have hrun := carryOut_eq_updated (m := m) (c := .block [t]) (s := s) rfl (by decide) rfl rfl
      (by decide) nofun hdocument 0
    exact hrun.trans (congrArg _ (congrArg Prod.snd hrun).symm)
  obtain ⟨later, s'', hlater, hfailure, hiff⟩ := scan_carryOut_iff (m := m) (s := s)
    (c := .block [t]) rfl hscan rfl hdocument rfl rfl hcall (by decide) rfl
  refine ⟨⟨hscan, hcall⟩, later, s'', hlater, hfailure, hiff.2 ?_⟩
  exact List.forall_mem_cons.2 ⟨Call.spares_of_key_eq rfl,
    List.forall_mem_singleton.2 ⟨by decide, fun _ _ _ hlogs => absurd hlogs (by decide)⟩⟩

/-- Blocking an activity takes the filter of the service with its name, and stops the logging of
another activity. The list still shows both as they were. -/
theorem scan_carryOut_ne :
    let store : RuleStore := ⟨"/ifw"⟩
    let found : PackageComponents := ⟨"com.app", [⟨.activity, "com.t.Ad", false, true⟩,
      ⟨.service, "com.t.Ad", false, true⟩, ⟨.activity, "com.t.Up", false, true⟩]⟩
    let m : Monitor Memory := ⟨⟨"com.app", none⟩, ⟨[⟨none, "T", ["com.t."], "ads", none⟩],
      [⟨"com.t.", 0, ⟨none, "T", ["com.t."], "ads", none⟩⟩]⟩, fun _ _ => .ok found, some store⟩
    let d : Document :=
      ⟨[], .element "activity" [("block", "true"), ("log", "true")] (.ofFilter "com.app/com.t.Up")
        (.element "service" [("block", "true")] (.ofFilter "com.app/com.t.Ad") .nil)⟩
    let t : Tracker := ⟨"com.t.Ad", .activity, "T", none, "ads", false, false, true, false⟩
    let u : Tracker := ⟨"com.t.Ad", .service, "T", none, "ads", true, false, true, false⟩
    let w : Tracker := ⟨"com.t.Up", .activity, "T", none, "ads", true, true, true, false⟩
    let report : ScanReport := ⟨"com.app", [t, u, w], 3, 3, "", none⟩
    let s := Session.publish report
      (.start (Memory.empty.rewritten (store.rulesFile "com.app") d.toBytes))
    let s' := (m.block [t] (some 0) s).2
    m.scan s = (.ok report, s.publish report) ∧
      m.block [t] (some 0) s = (.ok (.updated ⟨t.withState (some false), 0⟩), s') ∧
      s'.trackers.value = some [t.withState (some false), u, w] ∧
      (m.scan s').1 = .ok { report with
        trackers := [t.withState (some false), u.withState none, w.withState (some false)] } := by
  intro store found m d t u w report s s'
  have hnamed : d.IsWellNamed :=
    ⟨by decide, by decide, by decide, Xml.Content.isWellNamed_ofFilter _, by decide, by decide,
      Xml.Content.isWellNamed_ofFilter _, trivial⟩
  have hdocument : store.document "com.app" s.storage = .ok d :=
    store.document_rewritten hnamed.isReadable hnamed.isSealed
  have hmatches : m.signatures.report found.components "" =
      ⟨[t.withState none, u.withState none, w.withState none], 3, 3⟩ :=
    SignatureDatabase.report_eq (by decide +kernel) (by decide +kernel)
  have hreport : m.reportOn found s.keyword d = report := by
    change m.reportOn found "" d = report
    rw [reportOn, hmatches]
    decide
  have hscan : m.scan s = (.ok report, s.publish report) := by
    rw [← hreport]
    exact scan_eq (m := m) rfl (by decide) rfl rfl hdocument
  have hcall := carryOut_eq_updated (m := m) (c := .block [t]) (s := s) rfl (by decide) rfl rfl
    (by decide) nofun hdocument 0
  have hs' : s' = _ := congrArg Prod.snd hcall
  have hwritten : store.document "com.app" s'.storage =
      .ok ((Call.block [t]).edit "com.app" d).normal := by
    rw [hs']
    exact store.document_rewritten ((Call.block [t]).isReadable_edit "com.app" hnamed.isReadable)
      ((Call.block [t]).isSealed_edit "com.app" hnamed.isSealed)
  have hdenied : s'.storage.denied = false := by
    rw [hs']
    rfl
  have hlater := scan_eq (m := m) (s := s') rfl (by decide) hdenied rfl hwritten
  have hkeyword : s'.keyword = "" := by
    rw [hs']
    rfl
  refine ⟨hscan, hcall.trans (congrArg _ hs'.symm), ?_, ?_⟩
  · have hlist : [t, u, w][0]? = some t := rfl
    rw [hs']
    exact value_publishUpdate rfl hlist (some false)
  · rw [hlater, hkeyword, reportOn, hmatches]
    decide

end Monitor
end IntentFirewall
