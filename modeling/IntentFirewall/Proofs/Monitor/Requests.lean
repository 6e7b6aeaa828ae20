import IntentFirewall.Proofs.Monitor.InPlace

/-!
# Requests to a monitor

A monitor is asked for one thing after the other. In between, the storage may change from outside in
any way: another program writes a rule file, access is denied, a fault is about to strike. The
components of the package may come from somewhere else at every request.

* `Monitor.perform`: carries out a `Monitor.Request`.
* `Monitor.run`, `Monitor.steps`: the session behind a run of events, and the requests that were
  carried out on the way.
* `Monitor.Searched`, `Monitor.Passage`: the ways that a scan and a call can go;
  `Monitor.searched_scan` and `Monitor.passage_carryOut` say that there are no others.
-/

namespace IntentFirewall

/-- The trackers that a call has changed, unless there is no rule file. -/
def RuleStore.Answer.changed? : RuleStore.Answer → Option (List Tracker)
  | .blocked trackers => some trackers
  | .unblocked (.done trackers) => some trackers
  | .unblocked .noRulesFile => none

namespace Monitor

open RuleStore

/-- What can be asked of a monitor. -/
inductive Request
  /-- To find the trackers of the package. -/
  | scan
  /-- To find those that a new keyword lets through. -/
  | scanFor (keyword : String)
  /-- To block or to unblock trackers. -/
  | change (c : Call) (position : Option Nat)
  /-- To look at the rule document. -/
  | readRules
  /-- To take the single tracker away. -/
  | clearUpdate
  /-- To take the warning away. -/
  | clearWarning
  deriving DecidableEq, Repr

/-- What a monitor answers. -/
inductive Reply
  /-- What a scan has found. -/
  | scanned (report : ScanReport)
  /-- What became of trackers that were to be blocked or unblocked. -/
  | changed (outcome : Outcome)
  /-- The rule document, if there is a rule file. -/
  | rules (document : Option Document)
  /-- The single tracker has been taken away. -/
  | updateCleared
  /-- The warning has been taken away. -/
  | warningCleared
  deriving DecidableEq

/-- What happens in a session. -/
inductive Event (σ : Type)
  /-- Something is asked of the monitor, and the components of the package come from `source`. -/
  | request (source : ComponentSource σ) (r : Request)
  /-- The storage changes from outside. -/
  | outside (change : σ → σ)

/-- A request that has been carried out. -/
structure Step (σ : Type) where
  /-- The session before the request. -/
  before : Session σ
  /-- What has been asked. -/
  request : Request
  /-- What the monitor has answered. -/
  result : Except MonitorError Reply
  /-- The session behind the request. -/
  after : Session σ

section

variable {σ : Type} [Storage σ]

/-- Carries out a request. -/
def perform (m : Monitor σ) (s : Session σ) : Request → Except MonitorError Reply × Session σ
  | .scan => ((m.scan s).1.map .scanned, (m.scan s).2)
  | .scanFor keyword => ((m.scanFor keyword s).1.map .scanned, (m.scanFor keyword s).2)
  | .change c position =>
    ((m.carryOut position c s).1.map .changed, (m.carryOut position c s).2)
  | .readRules => ((m.readRules s).1.map .rules, (m.readRules s).2)
  | .clearUpdate => (.ok .updateCleared, s.clearUpdate)
  | .clearWarning => (.ok .warningCleared, s.clearWarning)

/-- The request of an event as a step. -/
def stepOf (m : Monitor σ) (s : Session σ) (source : ComponentSource σ) (r : Request) : Step σ :=
  ⟨s, r, ({ m with source }.perform s r).1, ({ m with source }.perform s r).2⟩

/-- The session behind an event. -/
def react (m : Monitor σ) (s : Session σ) : Event σ → Session σ
  | .request source r => (m.stepOf s source r).after
  | .outside change => { s with storage := change s.storage }

/-- The session behind a run of events. -/
def run (m : Monitor σ) (s : Session σ) (events : List (Event σ)) : Session σ :=
  events.foldl m.react s

/-- The requests that are carried out in a run of events. -/
def steps (m : Monitor σ) (s : Session σ) : List (Event σ) → List (Step σ)
  | [] => []
  | .request source r :: rest =>
    m.stepOf s source r :: steps m (m.stepOf s source r).after rest
  | .outside change :: rest => steps m { s with storage := change s.storage } rest

/-- What holds of every request, wherever the components come from, holds of every step of a
run. -/
theorem of_mem_steps {P : Step σ → Prop} {m : Monitor σ}
    (hperform : ∀ s source r, P (m.stepOf s source r)) {s : Session σ} {events : List (Event σ)} :
    ∀ t ∈ m.steps s events, P t := by
  induction events generalizing s with
  | nil => simp [steps]
  | cons event rest ih =>
    cases event with
    | request source r =>
      rw [steps, List.forall_mem_cons]
      exact ⟨hperform s source r, ih⟩
    | outside change => exact ih

/-- What every request and every change from outside keeps, a run keeps. -/
theorem run_of_react {P : Session σ → Prop} {m : Monitor σ} {events : List (Event σ)}
    (hreact : ∀ s, ∀ event ∈ events, P s → P (m.react s event)) {s : Session σ} (h : P s) :
    P (m.run s events) :=
  List.foldlRecOn events _ h fun s hs event hevent => hreact s event hevent hs

/-! ## The ways that scans and calls can go -/

/-- The ways that a scan can go, with its result and the session behind it. -/
inductive Searched (m : Monitor σ) (s : Session σ) :
    Except MonitorError ScanReport × Session σ → Prop
  /-- The components of the package cannot be found. -/
  | unresolved {cause : ComponentError} (hsource : m.source m.package s.storage = .error cause) :
    Searched m s (s.fail (.components cause))
  /-- The trackers among them are published. -/
  | found {report : ScanReport} {storage : σ}
      (hsurvey : m.survey s.keyword s.storage = (.ok report, storage)) :
    Searched m s (.ok report, { s with storage }.publish report)

/-- There are no other ways. -/
theorem searched_scan (m : Monitor σ) (s : Session σ) : Searched m s (m.scan s) := by
  cases hsurvey : m.survey s.keyword s.storage with
  | mk result storage =>
    cases result with
    | ok report =>
      rw [scan, hsurvey]
      exact .found hsurvey
    | error cause =>
      -- Components that cannot be found are looked for before the storage is touched.
      cases hsource : m.source m.package s.storage with
      | ok components => simp [survey, hsource] at hsurvey
      | error e =>
        obtain ⟨rfl, rfl⟩ : e = cause ∧ s.storage = storage := by
          simpa [survey, hsource] using hsurvey
        rw [scan, hsurvey]
        exact .unresolved hsource

/-- The ways that a call can go, with its result and the session behind it. -/
inductive Passage (m : Monitor σ) (position : Option Nat) (c : Call) (s : Session σ) :
    Except MonitorError Outcome × Session σ → Prop
  /-- The monitor must not touch rule files. -/
  | unprivileged (hrules : m.rules = none) : Passage m position c s (s.fail .unprivileged)
  /-- The rule file could not be changed. -/
  | refused {store : RuleStore} {e : RuleError} {storage : σ} (hrules : m.rules = some store)
      (hcall : store.carryOut m.package.packageName c s.storage = (.error e, storage)) :
    Passage m position c s ({ s with storage }.fail (.rules e))
  /-- There is no rule file. -/
  | missing {store : RuleStore} {storage : σ} (hrules : m.rules = some store)
      (hcall : store.carryOut m.package.packageName c s.storage =
        (.ok (.unblocked .noRulesFile), storage)) :
    Passage m position c s (.ok .noRulesFile, { s with storage }.warn .noRulesFile)
  /-- A single tracker at a known place has been changed. -/
  | updated {store : RuleStore} {a : Answer} {t : Tracker} {p : Nat} {storage : σ}
      (hrules : m.rules = some store)
      (hcall : store.carryOut m.package.packageName c s.storage = (.ok a, storage))
      (hchanged : a.changed? = some [t]) (hposition : position = some p) :
    Passage m position c s (.ok (.updated ⟨t, p⟩), { s with storage }.publishUpdate ⟨t, p⟩)
  /-- Trackers have been changed, and a scan follows. -/
  | rescanned {store : RuleStore} {a : Answer} {trackers : List Tracker} {storage : σ}
      {result : Except MonitorError ScanReport × Session σ} (hrules : m.rules = some store)
      (hcall : store.carryOut m.package.packageName c s.storage = (.ok a, storage))
      (hchanged : a.changed? = some trackers) (hscan : Searched m { s with storage } result) :
    Passage m position c s (result.1.map .rescanned, result.2)

/-- Trackers that have been changed are published in their place, or by a scan. -/
theorem finish_cases (m : Monitor σ) (changed : List Tracker) (position : Option Nat)
    (s : Session σ) :
    (∃ t p, changed = [t] ∧ position = some p ∧
      m.finish changed position s = (.ok (.updated ⟨t, p⟩), s.publishUpdate ⟨t, p⟩)) ∨
      m.finish changed position s = ((m.scan s).1.map .rescanned, (m.scan s).2) := by
  unfold finish
  split
  next t p => exact .inl ⟨t, p, rfl, rfl, rfl⟩
  next =>
    right
    cases m.scan s with
    | mk result s => cases result <;> rfl

/-- The way of a call that has changed the rule file. -/
theorem passage_finish {m : Monitor σ} {position : Option Nat} {c : Call} {s : Session σ}
    {store : RuleStore} {a : Answer} {trackers : List Tracker} {storage : σ}
    (hrules : m.rules = some store)
    (hcall : store.carryOut m.package.packageName c s.storage = (.ok a, storage))
    (hchanged : a.changed? = some trackers) :
    Passage m position c s (m.finish trackers position { s with storage }) := by
  rcases m.finish_cases trackers position { s with storage } with
    ⟨t, p, rfl, hposition, hfinish⟩ | hfinish
  · rw [hfinish]
    exact .updated hrules hcall hchanged hposition
  · rw [hfinish]
    exact .rescanned hrules hcall hchanged (m.searched_scan _)

/-- There are no other ways. -/
theorem passage_carryOut (m : Monitor σ) (position : Option Nat) (c : Call) (s : Session σ) :
    Passage m position c s (m.carryOut position c s) := by
  cases hrules : m.rules with
  | none => cases c <;> simpa only [carryOut, block, unblock, hrules] using .unprivileged hrules
  | some store =>
    cases c with
    | block trackers =>
      simp only [carryOut, block, hrules]
      cases hblock : store.block m.package.packageName trackers s.storage with
      | mk result storage =>
        have hcall : store.carryOut m.package.packageName (.block trackers) s.storage =
            (result.map .blocked, storage) := by
          rw [RuleStore.carryOut, hblock]
        cases result with
        | error e => exact .refused hrules hcall
        | ok blocked => exact passage_finish hrules hcall rfl
    | unblock trackers =>
      simp only [carryOut, unblock, hrules]
      cases hunblock : store.unblock m.package.packageName trackers s.storage with
      | mk result storage =>
        have hcall : store.carryOut m.package.packageName (.unblock trackers) s.storage =
            (result.map .unblocked, storage) := by
          rw [RuleStore.carryOut, hunblock]
        rcases result with e | ⟨unblocked⟩ | _
        · exact .refused hrules hcall
        · exact passage_finish hrules hcall rfl
        · exact .missing hrules hcall

end
end Monitor
end IntentFirewall
