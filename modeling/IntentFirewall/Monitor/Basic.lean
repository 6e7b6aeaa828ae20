import IntentFirewall.Component.Source
import IntentFirewall.Config
import IntentFirewall.Monitor.Slot
import IntentFirewall.Rules.RuleStore
import IntentFirewall.Tracker.Matching

/-!
# Monitors

A monitor watches the trackers of one package: it finds them, and blocks them through the rule file
of the package if it may. What it finds it publishes in the slots of a session.

## Main definitions

* `Monitor`: what stays the same, and `Monitor.ofConfig`, a monitor that works on a disk.
* `Session`: what changes.
* `ScanReport`, `Outcome`: the answers.
* `MonitorError`, `Warning`: what can go wrong, and what is published about it.
-/

namespace IntentFirewall

/-- Why a monitor could not do something. -/
inductive MonitorError
  /-- The components of the package cannot be found. -/
  | components (cause : ComponentError)
  /-- The rule file cannot be read or changed. -/
  | rules (cause : RuleError)
  /-- The monitor must not touch rule files. -/
  | unprivileged
  deriving DecidableEq, Repr

/-- The wording of a monitor error. -/
def MonitorError.message : MonitorError → String
  | .components cause => s!"Component error: {cause.message}"
  | .rules cause => s!"Rule error: {cause.message}"
  | .unprivileged =>
    "Could not acquire privileged file access: privileged access is not enabled"

/-- Why there is no monitor. -/
inductive SetupError
  /-- There is no configuration. -/
  | config (cause : ConfigError)
  /-- There are no signatures. -/
  | signatures (cause : SignatureError)
  deriving DecidableEq, Repr

/-- The wording of a setup error; that of a malformed text depends on the reader. -/
def SetupError.message? : SetupError → Option String
  | .config cause => cause.message?
  | .signatures cause => cause.message?.map ("Signature error: " ++ ·)

/-- What is published when something is not as it should be. -/
inductive Warning
  /-- A scan has found no trackers. -/
  | noTrackers
  /-- There is no rule file in which anything could be unblocked. -/
  | noRulesFile
  /-- An operation has failed. -/
  | failure (message : String)
  deriving DecidableEq, Repr

/-- The wording of a warning. -/
def Warning.message : Warning → String
  | .noTrackers => "No trackers found"
  | .noRulesFile => "No rules file, nothing to unblock"
  | .failure message => message

/-- A tracker that has changed where it stands in the list. -/
structure TrackerUpdate where
  /-- The tracker as it is now. -/
  tracker : Tracker
  /-- Its place in the list. -/
  position : Nat
  deriving DecidableEq, Repr

/-- What a scan has found. -/
structure ScanReport where
  /-- The package that was looked at. -/
  packageName : String
  /-- The trackers that the keyword lets through. -/
  trackers : List Tracker
  /-- The number of components looked at. -/
  scanned : Nat
  /-- The number of trackers without the keyword. -/
  matched : Nat
  /-- The keyword. -/
  keyword : String
  /-- Why the rule file could not be read, in which case nothing is known about blocked
  trackers. -/
  ruleFailure : Option RuleError
  deriving DecidableEq, Repr

/-- What became of trackers that were to be blocked or unblocked. -/
inductive Outcome
  /-- A single tracker has changed in its place. -/
  | updated (update : TrackerUpdate)
  /-- The package has been scanned again. -/
  | rescanned (report : ScanReport)
  /-- There is no rule file in which anything could be unblocked. -/
  | noRulesFile
  deriving DecidableEq, Repr

/-- What watches the trackers of a package, given a storage with states in `σ`. -/
structure Monitor (σ : Type) where
  /-- The package. -/
  package : PackageIdentity
  /-- The signatures that tell trackers. -/
  signatures : SignatureDatabase
  /-- Where the components of the package come from. -/
  source : ComponentSource σ
  /-- Where the rule files lie, unless they must not be touched. -/
  rules : Option RuleStore

namespace Monitor

/-- The rule files of a configuration, which may be touched only if it says so. -/
def rulesOf (c : Config) : Option RuleStore :=
  if c.usePrivilegedAccess then some ⟨c.rulesDir⟩ else none

/-- The signatures of a configuration. -/
def signaturesOf (c : Config) (t : FileTree) : Except SignatureError SignatureDatabase :=
  match c.signaturesPath with
  | none => .ok .builtin
  | some path => SignatureDatabase.load path t

/-- The monitor of a package on a disk. -/
def ofConfig (c : Config) (package : PackageIdentity) (t : FileTree) :
    Except SetupError (Monitor FileTree) :=
  match signaturesOf c t with
  | .error e => .error (.signatures e)
  | .ok signatures => .ok ⟨package, signatures, .onDisk c.manifestsDir, rulesOf c⟩

end Monitor

/-- The state of a monitor. -/
structure Session (σ : Type) where
  /-- The storage of the rule files. -/
  storage : σ
  /-- The keyword of the last request for one. -/
  keyword : String
  /-- The trackers that the last scan has found, as they are now. -/
  trackers : Slot (List Tracker)
  /-- The last single tracker that has changed. -/
  update : Slot TrackerUpdate
  /-- The last warning. -/
  warning : Slot Warning
  deriving DecidableEq, Repr

namespace Session

variable {σ : Type}

/-- A session in which nothing has happened. -/
def start (storage : σ) : Session σ := ⟨storage, "", .empty, .empty, .empty⟩

/-- Takes the single tracker away once it has been seen. -/
def clearUpdate (s : Session σ) : Session σ := { s with update := s.update.clear }

/-- Takes the warning away once it has been seen. -/
def clearWarning (s : Session σ) : Session σ := { s with warning := s.warning.clear }

/-- Publishes a warning. -/
def warn (w : Warning) (s : Session σ) : Session σ := { s with warning := s.warning.put w }

/-- The session after a failed operation. -/
def fail {α : Type} (e : MonitorError) (s : Session σ) : Except MonitorError α × Session σ :=
  (.error e, s.warn (.failure e.message))

/-- Publishes the trackers of a scan, and a warning if there are none. -/
def publish (report : ScanReport) (s : Session σ) : Session σ :=
  let warned := if report.trackers.isEmpty then s.warn .noTrackers else s
  { warned with trackers := warned.trackers.put report.trackers }

end Session

/-- The list with another tracker at a position, if it stands for the same component as the one that
is there. -/
def TrackerUpdate.applyTo? (u : TrackerUpdate) (trackers : List Tracker) : Option (List Tracker) :=
  match trackers[u.position]? with
  | some t => if t.sameComponent u.tracker then some (trackers.set u.position u.tracker) else none
  | none => none

/-- Publishes a single tracker that has changed. In the list it changes only if it is found where
it is said to be. -/
def Session.publishUpdate {σ : Type} (u : TrackerUpdate) (s : Session σ) : Session σ :=
  { s with trackers := s.trackers.update u.applyTo?, update := s.update.put u }

end IntentFirewall
