import IntentFirewall.Command.Reply
import IntentFirewall.Proofs.Monitor.Files
import IntentFirewall.Proofs.Monitor.Listing
import IntentFirewall.Proofs.Storage.Transparent

/-!
# Trackers that are named on the command line

Trackers are blocked and unblocked by the names of their classes. A name may be that of several
trackers of different kinds, and it may be given more than once. Only if a single tracker is meant
is its place in the list passed on with it; this is the list that the scan for the names has just
published, so that the change in place finds its entry.

* `bearers`: the trackers that are meant. `select_eq`, `select_eq_error`: what is selected.
* `onlyPlace?_eq_some_iff`: the place that is passed on.
* `Monitor.settles_carryOut`: what a call with such a place does to the list.
* `perform_of_scan`: what becomes of the whole command.
-/

namespace IntentFirewall

/-! ## Trackers that a call has changed -/

namespace RuleStore

variable {packageName : String} {c : Call} {a : Answer} {changed : List Tracker}

/-- A plan answers with the trackers of the call, which have got the state that it reports. -/
theorem Call.changed_of_plan (h : (c.plan packageName).answer? = some a)
    (hchanged : a.changed? = some changed) : changed = c.trackers.map (·.withState c.state) := by
  cases c with
  | block trackers =>
    rw [plan] at h
    split at h
    next => cases h
    next hentries =>
      obtain rfl : Answer.blocked [] = a := Option.some.inj h
      obtain rfl := Option.some.inj hchanged
      obtain rfl : trackers = [] :=
        List.eq_nil_of_length_eq_zero (length_ruleEntries hentries).symm
      rfl
    next =>
      split at h
      next =>
        obtain rfl : Answer.blocked _ = a := Option.some.inj h
        exact (Option.some.inj hchanged).symm
      next => cases h
  | unblock trackers =>
    rw [plan] at h
    split at h
    next =>
      obtain rfl : Answer.unblocked _ = a := Option.some.inj h
      exact (Option.some.inj hchanged).symm
    next => cases h

theorem changed_of_carryOut {σ : Type} [Storage σ] {s s' : σ} {store : RuleStore}
    (hcall : store.carryOut packageName c s = (.ok a, s')) (hchanged : a.changed? = some changed) :
    changed = c.trackers.map (·.withState c.state) := by
  rw [carryOut_eq] at hcall
  rcases Plan.answer?_of_carryOut hcall with hanswer | rfl
  · exact Call.changed_of_plan hanswer hchanged
  · cases hchanged

end RuleStore

/-! ## Calls for trackers of a list that has just been published -/

namespace Monitor

open RuleStore

/-- What a call does to the list that has been published before. Only a single tracker is changed
in place, and it is found there. -/
def Settles (listed : List Tracker) (c : Call) (place : Option Nat)
    (before after : Slot (List Tracker)) : Except MonitorError Outcome → Prop
  | .error _ => after = before
  | .ok .noRulesFile => after = before
  | .ok (.rescanned report) => place = none ∧ after.value = some report.trackers
  | .ok (.updated u) =>
    ∃ t, c.trackers = [t] ∧ place = some u.position ∧ listed[u.position]? = some t ∧
      u.tracker = t.withState c.state ∧ after = before.put (listed.set u.position u.tracker)

variable {σ : Type} [Storage σ] {m : Monitor σ} {s s₁ : Session σ} {c : Call} {place : Option Nat}

/-- A call that has changed trackers publishes them. -/
theorem carryOut_eq_finish {store : RuleStore} {a : Answer} {changed : List Tracker} {storage : σ}
    (hrules : m.rules = some store)
    (hcall : store.carryOut m.package.packageName c s.storage = (.ok a, storage))
    (hchanged : a.changed? = some changed) :
    m.carryOut place c s = m.finish changed place { s with storage } := by
  cases c with
  | block trackers =>
    rcases hblock : store.block m.package.packageName trackers s.storage with ⟨e | blocked, storage⟩
    all_goals
      simp only [RuleStore.carryOut, hblock, Except.map, Prod.mk.injEq, reduceCtorEq, false_and,
        Except.ok.injEq] at hcall
    obtain ⟨rfl, rfl⟩ := hcall
    obtain rfl := Option.some.inj hchanged
    simp only [carryOut, block, hrules, hblock]
  | unblock trackers =>
    rcases hunblock : store.unblock m.package.packageName trackers s.storage with
      ⟨e | ⟨unblocked⟩ | _, storage⟩
    all_goals
      simp only [RuleStore.carryOut, hunblock, Except.map, Prod.mk.injEq, reduceCtorEq, false_and,
        Except.ok.injEq] at hcall
    all_goals obtain ⟨rfl, rfl⟩ := hcall
    · obtain rfl := Option.some.inj hchanged
      simp only [carryOut, unblock, hrules, hunblock]
    · cases hchanged

/-- With the place of a single tracker in the list, this is where the list changes. -/
theorem settles_carryOut {listed : List Tracker} (hlisted : s.trackers.value = some listed)
    (hplace : ∀ i, place = some i → ∃ t, c.trackers = [t] ∧ listed[i]? = some t) :
    Settles listed c place s.trackers (m.carryOut place c s).2.trackers
      (m.carryOut place c s).1 := by
  have hpassage := m.passage_carryOut place c s
  generalize hresult : m.carryOut place c s = result at hpassage ⊢
  -- What is published is read off the way that the call has taken.
  cases hpassage with
  | unprivileged => rfl
  | refused => rfl
  | missing => rfl
  | @updated store a t' p storage hrules hcall hchanged hposition =>
    obtain ⟨t, htrackers, hentry⟩ := hplace p hposition
    obtain rfl : t' = t.withState c.state := by
      simpa [htrackers] using changed_of_carryOut hcall hchanged
    refine ⟨t, htrackers, hposition, hentry, rfl, ?_⟩
    have hchanges :=
      (⟨t.withState c.state, p⟩ : TrackerUpdate).changes_publishUpdate { s with storage }
    generalize (Session.publishUpdate _ _).trackers = after at hchanges ⊢
    -- The entry that is changed is looked for by its key, which a change of state does not touch.
    cases hchanges with
    | inPlace hlist =>
      obtain rfl := Option.some.inj (hlisted.symm.trans hlist)
      rfl
    | elsewhere hkey => exact absurd rfl (hkey listed t hlisted hentry)
  | @rescanned store a changed storage result hrules hcall hchanged hscan =>
    cases hscan with
    | unresolved => rfl
    | found =>
      refine ⟨?_, rfl⟩
      -- With a place there is a single tracker, and no scan.
      cases place with
      | none => rfl
      | some i =>
        obtain ⟨t, htrackers, -⟩ := hplace i rfl
        obtain rfl : changed = [t.withState c.state] := by
          simpa [htrackers] using changed_of_carryOut hcall hchanged
        rw [carryOut_eq_finish hrules hcall hchanged] at hresult
        simp [finish, Except.map] at hresult

end Monitor

namespace Command

/-! ## Selections -/

/-- The trackers of a list that bear the first of several names, then those that bear the next one,
and so on. -/
def bearers (trackers : List Tracker) (names : List String) : List Tracker :=
  names.flatMap fun name => trackers.filter fun t => t.componentName = name

variable {trackers : List Tracker} {name : String} {names : List String} {t : Tracker} {i : Nat}

theorem mem_bearing : (t, i) ∈ bearing trackers name ↔
    trackers[i]? = some t ∧ t.componentName = name := by
  simp [bearing, List.mem_zipIdx_iff_getElem?]

theorem map_fst_bearing (trackers : List Tracker) (name : String) :
    (bearing trackers name).map Prod.fst = trackers.filter fun t => t.componentName = name := by
  conv_rhs => rw [← List.zipIdx_map_fst 0 trackers, List.filter_map]
  rfl

theorem bearing_eq_nil_iff : bearing trackers name = [] ↔
    ∀ t ∈ trackers, t.componentName ≠ name := by
  rw [← List.map_eq_nil_iff (f := Prod.fst), map_fst_bearing]
  simp

theorem map_fst_flatMap_bearing (trackers : List Tracker) (names : List String) :
    (names.flatMap (bearing trackers)).map Prod.fst = bearers trackers names := by
  simp only [List.map_flatMap, map_fst_bearing, bearers]

variable {report : ScanReport}

/-- Names of trackers select all that bear them. -/
theorem selectAll_eq (h : ∀ name ∈ names, ∃ t ∈ report.trackers, t.componentName = name) :
    selectAll report names = .ok (names.flatMap (bearing report.trackers)) := by
  induction names with
  | nil => rfl
  | cons name rest ih =>
    rw [List.forall_mem_cons] at h
    obtain ⟨⟨t, ht, hname⟩, hrest⟩ := h
    have hfound : bearing report.trackers name ≠ [] := fun hnone =>
      bearing_eq_nil_iff.1 hnone t ht hname
    rw [selectAll]
    split
    next hnone => exact absurd hnone hfound
    next => rw [ih hrest]; rfl

/-- The first name that no tracker bears is told. -/
theorem selectAll_eq_error {before after : List String}
    (hbefore : ∀ name ∈ before, ∃ t ∈ report.trackers, t.componentName = name)
    (hname : ∀ t ∈ report.trackers, t.componentName ≠ name) :
    selectAll report (before ++ name :: after) = .error (.notDetected name report.packageName) := by
  induction before with
  | nil => rw [List.nil_append, selectAll, bearing_eq_nil_iff.2 hname]
  | cons first rest ih =>
    rw [List.forall_mem_cons] at hbefore
    obtain ⟨⟨t, ht, hfirst⟩, hrest⟩ := hbefore
    have hfound : bearing report.trackers first ≠ [] := fun hnone =>
      bearing_eq_nil_iff.1 hnone t ht hfirst
    rw [List.cons_append, selectAll]
    split
    next hnone => exact absurd hnone hfound
    next => rw [ih hrest]

theorem onlyPlace?_eq_some_iff {selected : List (Tracker × Nat)} :
    onlyPlace? selected = some i ↔ ∃ t, selected = [(t, i)] := by
  unfold onlyPlace?
  split
  next t place => simp
  next hne =>
    simp only [reduceCtorEq, false_iff]
    rintro ⟨t, rfl⟩
    exact hne t i rfl

theorem isSome_onlyPlace?_iff {selected : List (Tracker × Nat)} :
    (onlyPlace? selected).isSome = true ↔ selected.length = 1 := by
  simp only [Option.isSome_iff_exists, onlyPlace?_eq_some_iff, List.length_eq_one_iff, Prod.exists]
  exact exists_comm

/-- The place that is passed on is that of the only tracker that bears a name. -/
theorem onlyPlace?_flatMap_bearing :
    onlyPlace? (names.flatMap (bearing trackers)) = some i ↔
      ∃ t, bearers trackers names = [t] ∧ trackers[i]? = some t := by
  rw [onlyPlace?_eq_some_iff, ← map_fst_flatMap_bearing]
  constructor
  · rintro ⟨t, hselected⟩
    have hmem : (t, i) ∈ names.flatMap (bearing trackers) := by
      rw [hselected]
      exact List.mem_singleton_self _
    obtain ⟨name, -, hbearing⟩ := List.mem_flatMap.1 hmem
    exact ⟨t, by rw [hselected]; rfl, (mem_bearing.1 hbearing).1⟩
  · rintro ⟨t, hselected, hentry⟩
    obtain ⟨⟨t', j⟩, hsingle, rfl⟩ := List.map_eq_singleton_iff.1 hselected
    -- Whatever else stands at a place of this tracker would have been selected, too.
    have hmem : (t', j) ∈ names.flatMap (bearing trackers) := by
      rw [hsingle]
      exact List.mem_singleton_self _
    obtain ⟨name, hname, hbearing⟩ := List.mem_flatMap.1 hmem
    have hother : (t', i) ∈ names.flatMap (bearing trackers) :=
      List.mem_flatMap.2 ⟨name, hname, mem_bearing.2 ⟨hentry, (mem_bearing.1 hbearing).2⟩⟩
    rw [hsingle, List.mem_singleton] at hother
    exact ⟨t', by rw [hsingle, hother]⟩

/-! ## Commands -/

/-- What a command does with the trackers that it names. -/
inductive Change
  /-- They are blocked. -/
  | block
  /-- They are unblocked. -/
  | unblock
  deriving DecidableEq, Repr

namespace Change

/-- The command with given names. -/
def action : Change → List String → Action
  | block => .block
  | unblock => .unblock

/-- The call that is made for given trackers. -/
def call : Change → List Tracker → RuleStore.Call
  | block => .block
  | unblock => .unblock

theorem trackers_call (change : Change) (trackers : List Tracker) :
    (change.call trackers).trackers = trackers := by
  cases change <;> rfl

end Change

variable {σ : Type} [Storage σ] {m : Monitor σ} {s s₁ : Session σ}

theorem perform_eq (change : Change) (names : List String) (s : Session σ) :
    (change.action names).perform m s =
      ((changeSelected m names (fun trackers place => m.carryOut place (change.call trackers))
          s).1.map .changed,
        (changeSelected m names (fun trackers place => m.carryOut place (change.call trackers))
          s).2) := by
  cases change <;> rfl

/-- A name that no tracker bears is told, and nothing else is done. -/
theorem perform_of_notDetected (hscan : m.scan s = (.ok report, s₁)) (change : Change)
    {before after : List String}
    (hbefore : ∀ name ∈ before, ∃ t ∈ report.trackers, t.componentName = name)
    (hname : ∀ t ∈ report.trackers, t.componentName ≠ name) :
    (change.action (before ++ name :: after)).perform m s =
      (.error (.notDetected name report.packageName), s₁) := by
  rw [perform_eq, changeSelected, hscan]
  simp only [select, selectAll_eq_error hbefore hname]
  rfl

/-- All trackers that bear a name are passed on. -/
theorem perform_of_detected (hscan : m.scan s = (.ok report, s₁)) (change : Change)
    (h : ∀ name ∈ names, ∃ t ∈ report.trackers, t.componentName = name) :
    (change.action names).perform m s =
      (((m.carryOut (onlyPlace? (names.flatMap (bearing report.trackers)))
          (change.call (bearers report.trackers names)) s₁).1.mapError .monitor).map .changed,
        (m.carryOut (onlyPlace? (names.flatMap (bearing report.trackers)))
          (change.call (bearers report.trackers names)) s₁).2) := by
  rw [perform_eq, changeSelected, hscan]
  simp only [select, selectAll_eq h, Except.map, map_fst_flatMap_bearing]
  rcases m.carryOut _ (change.call (bearers report.trackers names)) s₁ with ⟨e | outcome, s₂⟩
  · rfl
  · rfl

variable [Storage.Transparent σ]

/-- A scan that has found trackers publishes them, and leaves all files as they are. -/
theorem published_of_scan (hscan : m.scan s = (.ok report, s₁)) :
    s₁.trackers.value = some report.trackers ∧
      ∀ file, Storage.Transparent.bytes? file s₁.storage =
        Storage.Transparent.bytes? file s.storage := by
  have hsearched := m.searched_scan s
  rw [hscan] at hsearched
  generalize hresult : (Except.ok report, s₁) = result at hsearched
  cases hsearched with
  | unresolved => cases hresult
  | @found report storage hsurvey =>
    cases hresult
    refine ⟨rfl, fun file => ?_⟩
    have hview := m.view_survey (Storage.Transparent.bytes?_isFile file)
      (Storage.Transparent.bytes?_readAll file) s.keyword s.storage
    rw [hsurvey] at hview
    rw [Session.storage_publish]
    exact hview

/-- A command that names trackers is carried out on what the scan for them has published. If a name
is not that of a tracker, the first such name is told, and no file changes. Otherwise all trackers
that bear the names are passed on, name after name, and the place of a single one with it: where it
stands in the list that has been published, so that a change in place changes it there. -/
theorem perform_of_scan (hscan : m.scan s = (.ok report, s₁)) (change : Change)
    (names : List String) :
    s₁.trackers.value = some report.trackers ∧
      ((∃ name ∈ names, ∀ t ∈ report.trackers, t.componentName ≠ name) →
        ∃ before name after, names = before ++ name :: after ∧
          (∀ earlier ∈ before, ∃ t ∈ report.trackers, t.componentName = earlier) ∧
          (∀ t ∈ report.trackers, t.componentName ≠ name) ∧
          (change.action names).perform m s =
            (.error (.notDetected name report.packageName), s₁) ∧
          ∀ file, Storage.Transparent.bytes? file s₁.storage =
            Storage.Transparent.bytes? file s.storage) ∧
      ((∀ name ∈ names, ∃ t ∈ report.trackers, t.componentName = name) →
        let selected := bearers report.trackers names
        ∃ place : Option Nat, (place.isSome = true ↔ selected.length = 1) ∧
          (∀ i, place = some i ↔ ∃ t, selected = [t] ∧ report.trackers[i]? = some t) ∧
          (change.action names).perform m s =
            (((m.carryOut place (change.call selected) s₁).1.mapError .monitor).map .changed,
              (m.carryOut place (change.call selected) s₁).2) ∧
          Monitor.Settles report.trackers (change.call selected) place s₁.trackers
            (m.carryOut place (change.call selected) s₁).2.trackers
            (m.carryOut place (change.call selected) s₁).1) := by
  obtain ⟨hpublished, hfiles⟩ := published_of_scan hscan
  refine ⟨hpublished, ?_, ?_⟩
  · rintro ⟨name, hmem, hname⟩
    -- The first name of this kind stops the selection.
    have hsome :
        (names.find? fun name => ∀ t ∈ report.trackers, t.componentName ≠ name).isSome := by
      rw [List.find?_isSome]
      exact ⟨name, hmem, by simpa using hname⟩
    obtain ⟨first, hfind⟩ := Option.isSome_iff_exists.1 hsome
    obtain ⟨hfirst, before, after, rfl, hbefore⟩ := List.find?_eq_some_iff_append.1 hfind
    have hfirst : ∀ t ∈ report.trackers, t.componentName ≠ first := by simpa using hfirst
    have hbefore : ∀ earlier ∈ before, ∃ t ∈ report.trackers, t.componentName = earlier := by
      simpa using hbefore
    exact ⟨before, first, after, rfl, hbefore, hfirst,
      perform_of_notDetected hscan change hbefore hfirst, hfiles⟩
  · intro hnames selected
    refine ⟨onlyPlace? (names.flatMap (bearing report.trackers)), ?_,
      fun i => onlyPlace?_flatMap_bearing, perform_of_detected hscan change hnames, ?_⟩
    · change _ ↔ (bearers report.trackers names).length = 1
      rw [isSome_onlyPlace?_iff, ← map_fst_flatMap_bearing, List.length_map]
    · refine Monitor.settles_carryOut hpublished fun i hplace => ?_
      rw [Change.trackers_call]
      exact onlyPlace?_flatMap_bearing.1 hplace

/-- Of three trackers, two bear one name. The third one is blocked where it stands. -/
theorem perform_of_scan_kinds :
    let tracker (name : String) (kind : ComponentKind) : Tracker :=
      ⟨name, kind, "T", none, "ads", false, false, true, false⟩
    let listed := [tracker "com.t.Ad" .activity, tracker "com.t.Ad" .service,
      tracker "com.t.Up" .service]
    let found : PackageComponents := ⟨"com.app", [⟨.activity, "com.t.Ad", false, true⟩,
      ⟨.service, "com.t.Ad", false, true⟩, ⟨.service, "com.t.Up", false, true⟩]⟩
    let m : Monitor Memory := ⟨⟨"com.app", none⟩, ⟨[⟨none, "T", ["com.t."], "ads", none⟩],
      [⟨"com.t.", 0, ⟨none, "T", ["com.t."], "ads", none⟩⟩]⟩, fun _ _ => .ok found, some ⟨"/ifw"⟩⟩
    let s := Session.start Memory.empty
    let report : ScanReport := ⟨"com.app", listed, 3, 3, "", none⟩
    let u : TrackerUpdate := ⟨(tracker "com.t.Up" .service).withState (some false), 2⟩
    let s₂ := ((Action.block ["com.t.Up"]).perform m s).2
    m.scan s = (.ok report, s.publish report) ∧
      (Action.block ["com.t.Up"]).perform m s = (.ok (.changed (.updated u)), s₂) ∧
      s₂.trackers = (s.publish report).trackers.put (listed.set 2 u.tracker) := by
  intro tracker listed found m s report u s₂
  have hmatches : m.signatures.report found.components "" = ⟨listed, 3, 3⟩ :=
    SignatureDatabase.report_eq (by decide +kernel) (by decide +kernel)
  have hreport : m.reportOn found s.keyword .empty = report := by
    change m.reportOn found "" .empty = report
    rw [Monitor.reportOn, hmatches]
    decide
  have hdocument : RuleStore.document ⟨"/ifw"⟩ "com.app" s.storage = .ok .empty := by
    decide +kernel
  have hscan : m.scan s = (.ok report, s.publish report) := by
    rw [← hreport]
    exact Monitor.scan_eq (m := m) rfl (by decide) rfl rfl hdocument
  obtain ⟨-, -, hall⟩ := perform_of_scan hscan .block ["com.t.Up"]
  obtain ⟨place, -, hplace, hperform, hsettles⟩ := hall (by decide)
  obtain rfl : place = some 2 := (hplace 2).2 ⟨tracker "com.t.Up" .service, rfl, rfl⟩
  have hcall := Monitor.carryOut_eq_updated (m := m) (c := .block [tracker "com.t.Up" .service])
    (s := s.publish report) rfl (by decide) rfl rfl (by decide) nofun hdocument 2
  have hselected : Change.block.call (bearers report.trackers ["com.t.Up"]) =
      .block [tracker "com.t.Up" .service] := by decide
  rw [hselected, hcall] at hperform hsettles
  have hlast : s₂ = _ := congrArg Prod.snd hperform
  obtain ⟨t, -, -, -, -, hlist⟩ := hsettles
  exact ⟨hscan, hperform.trans (Prod.ext rfl hlast.symm), hlast ▸ hlist⟩

end Command
end IntentFirewall
