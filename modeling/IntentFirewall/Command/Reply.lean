import IntentFirewall.Command.Invocation
import IntentFirewall.Monitor.Json
import IntentFirewall.Monitor.Run

/-!
# Carrying out commands

A command is carried out by a monitor. Trackers that are to be blocked or unblocked are named by
their classes, so the package is scanned first; every name has to be that of a tracker.

* `select`: the trackers with given names, and the place in the list if there is just one.
* `Action.perform`: carries out a command.
* `Reply.toJson`: the answer that is printed.
-/

namespace IntentFirewall.Command

/-- Why a command failed. -/
inductive CommandError
  /-- The monitor could not do it. -/
  | monitor (cause : MonitorError)
  /-- No tracker of the package has the name. -/
  | notDetected (name package : String)
  deriving DecidableEq, Repr

/-- The wording of a command error. -/
def CommandError.message : CommandError → String
  | .monitor cause => cause.message
  | .notDetected name package => s!"{name} is not a detected tracker of {package}"

/-- The trackers of a list that bear a name, with their places. -/
def bearing (trackers : List Tracker) (name : String) : List (Tracker × Nat) :=
  trackers.zipIdx.filter fun p => p.1.componentName == name

/-- The trackers of a report that bear one of several names, in the order of the names. -/
def selectAll (report : ScanReport) : List String → Except CommandError (List (Tracker × Nat))
  | [] => .ok []
  | name :: rest =>
    match bearing report.trackers name with
    | [] => .error (.notDetected name report.packageName)
    | found =>
      match selectAll report rest with
      | .error e => .error e
      | .ok others => .ok (found ++ others)

/-- The place in the list, if just one tracker is selected. -/
def onlyPlace? : List (Tracker × Nat) → Option Nat
  | [(_, place)] => some place
  | _ => none

/-- The trackers of a report that bear one of several names, and the place if there is just one. -/
def select (report : ScanReport) (names : List String) :
    Except CommandError (List Tracker × Option Nat) :=
  (selectAll report names).map fun selected => (selected.map Prod.fst, onlyPlace? selected)

/-- What the rule file of a package says. -/
structure RulesReport where
  /-- The package. -/
  packageName : String
  /-- Its rule sets, if there is a rule file. -/
  ruleSets : Option (List RuleSet)
  deriving DecidableEq, Repr

/-- What a command has brought. -/
inductive Reply
  /-- The trackers that a scan has found. -/
  | scanned (report : ScanReport)
  /-- What became of the selected trackers. -/
  | changed (outcome : Outcome)
  /-- What the rule file says. -/
  | rules (report : RulesReport)
  deriving DecidableEq, Repr

section

variable {σ : Type} [Storage σ]

/-- Changes the rules of the trackers that bear one of several names. -/
def changeSelected (m : Monitor σ) (names : List String)
    (change : List Tracker → Option Nat → Session σ → Except MonitorError Outcome × Session σ)
    (s : Session σ) : Except CommandError Outcome × Session σ :=
  match m.scan s with
  | (.error e, s) => (.error (.monitor e), s)
  | (.ok report, s) =>
    match select report names with
    | .error e => (.error e, s)
    | .ok (trackers, place) =>
      match change trackers place s with
      | (.error e, s) => (.error (.monitor e), s)
      | (.ok outcome, s) => (.ok outcome, s)

/-- Scans a package, with a new keyword if there is one. -/
def scanWith (m : Monitor σ) (keyword : Option String) (s : Session σ) :
    Except MonitorError ScanReport × Session σ :=
  match keyword with
  | none => m.scan s
  | some keyword => m.scanFor keyword s

/-- Looks at the rule file of a package. -/
def reportRules (m : Monitor σ) (s : Session σ) : Except MonitorError RulesReport × Session σ :=
  match m.readRules s with
  | (.error e, s) => (.error e, s)
  | (.ok document, s) => (.ok ⟨m.package.packageName, document.map Document.ruleSets⟩, s)

/-- Carries out a command. -/
def Action.perform (m : Monitor σ) (s : Session σ) :
    Action → Except CommandError Reply × Session σ
  | .scan keyword =>
    let (result, s) := scanWith m keyword s
    ((result.mapError .monitor).map .scanned, s)
  | .block names =>
    let (result, s) := changeSelected m names m.block s
    (result.map .changed, s)
  | .unblock names =>
    let (result, s) := changeSelected m names m.unblock s
    (result.map .changed, s)
  | .rules =>
    let (result, s) := reportRules m s
    ((result.mapError .monitor).map .rules, s)

end

open Json

/-- What a rule file says, as JSON. -/
def RulesReport.toJson (r : RulesReport) : Value :=
  .object [("package_name", .text r.packageName), ("exists", .flag r.ruleSets.isSome),
    ("rule_sets", .array ((r.ruleSets.getD []).map RuleSet.toJson))]

/-- What a command has brought, as JSON. -/
def Reply.toJson : Reply → Value
  | .scanned report => report.toJson
  | .changed outcome => outcome.toJson
  | .rules report => report.toJson

/-- The answer to a command, which tells whether it succeeded, and what it has brought or why it
failed. -/
def answer (result : Except CommandError Reply) : Value :=
  match result with
  | .ok reply =>
    .object [("success", .flag true), ("data", reply.toJson), ("error", .null)]
  | .error e =>
    .object [("success", .flag false), ("data", .null), ("error", .text e.message)]

end IntentFirewall.Command
