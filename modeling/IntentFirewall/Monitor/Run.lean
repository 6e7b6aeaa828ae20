import IntentFirewall.Monitor.Basic

/-!
# What a monitor does

Every operation takes a session to the next one. One that fails publishes its error as a warning and
leaves the published trackers alone.

## Main definitions

* `Monitor.scan`, `Monitor.scanFor`: find the trackers, with the keyword at hand or a new one.
* `Monitor.block`, `Monitor.unblock`: change the rule file. If this was about a single tracker whose
  place in the list is given, the list is changed there; otherwise a scan renews it.
* `Monitor.readRules`: the rule document.
-/

namespace IntentFirewall.Monitor

variable {σ : Type} [Storage σ]

/-- Trackers with the state that the rule file gives them, if it may be read. If that fails they
stay as they are, and the error is told. -/
def withRuleState (m : Monitor σ) (trackers : List Tracker) (storage : σ) :
    (List Tracker × Option RuleError) × σ :=
  match m.rules with
  | none => ((trackers, none), storage)
  | some store =>
    match store.applyState m.package.packageName trackers storage with
    | (.ok trackers, storage) => ((trackers, none), storage)
    | (.error e, storage) => ((trackers, some e), storage)

/-- The report of a scan. -/
def survey (m : Monitor σ) (keyword : String) (storage : σ) :
    Except ComponentError ScanReport × σ :=
  match m.source m.package storage with
  | .error e => (.error e, storage)
  | .ok found =>
    let report := m.signatures.report found.components keyword
    let ((trackers, failure), storage) := m.withRuleState report.trackers storage
    (.ok ⟨m.package.packageName, trackers, report.scanned, report.matched, keyword, failure⟩,
      storage)

/-- Finds the trackers of the package. -/
def scan (m : Monitor σ) (s : Session σ) : Except MonitorError ScanReport × Session σ :=
  match m.survey s.keyword s.storage with
  | (.error e, storage) => { s with storage }.fail (.components e)
  | (.ok report, storage) => (.ok report, { s with storage }.publish report)

/-- Finds the trackers of the package that a keyword lets through. The keyword stays for later
scans. -/
def scanFor (m : Monitor σ) (keyword : String) (s : Session σ) :
    Except MonitorError ScanReport × Session σ :=
  m.scan { s with keyword }

/-- Publishes trackers whose rules have changed. -/
def finish (m : Monitor σ) (changed : List Tracker) (position : Option Nat) (s : Session σ) :
    Except MonitorError Outcome × Session σ :=
  match changed, position with
  | [tracker], some position =>
    (.ok (.updated ⟨tracker, position⟩), s.publishUpdate ⟨tracker, position⟩)
  | _, _ =>
    match m.scan s with
    | (.error e, s) => (.error e, s)
    | (.ok report, s) => (.ok (.rescanned report), s)

/-- Blocks trackers. -/
def block (m : Monitor σ) (trackers : List Tracker) (position : Option Nat) (s : Session σ) :
    Except MonitorError Outcome × Session σ :=
  match m.rules with
  | none => s.fail .unprivileged
  | some store =>
    match store.block m.package.packageName trackers s.storage with
    | (.error e, storage) => { s with storage }.fail (.rules e)
    | (.ok blocked, storage) => m.finish blocked position { s with storage }

/-- Unblocks trackers. Without a rule file there is nothing to do, which is worth a warning. -/
def unblock (m : Monitor σ) (trackers : List Tracker) (position : Option Nat) (s : Session σ) :
    Except MonitorError Outcome × Session σ :=
  match m.rules with
  | none => s.fail .unprivileged
  | some store =>
    match store.unblock m.package.packageName trackers s.storage with
    | (.error e, storage) => { s with storage }.fail (.rules e)
    | (.ok (.done unblocked), storage) => m.finish unblocked position { s with storage }
    | (.ok .noRulesFile, storage) => (.ok .noRulesFile, { s with storage }.warn .noRulesFile)

/-- The rule document of the package, if there is a rule file. -/
def readRules (m : Monitor σ) (s : Session σ) :
    Except MonitorError (Option Document) × Session σ :=
  match m.rules with
  | none => s.fail .unprivileged
  | some store =>
    match store.readDocument m.package.packageName s.storage with
    | (.error e, storage) => { s with storage }.fail (.rules e)
    | (.ok document, storage) => (.ok document, { s with storage })

end IntentFirewall.Monitor
