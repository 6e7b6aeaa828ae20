import IntentFirewall.Rules.Document
import IntentFirewall.Storage.Basic
import IntentFirewall.Text.Quoted
import IntentFirewall.Tracker

/-!
# The rule store

The rule file of a package lies in the directory of the intent firewall and is named after the
package. Every operation reads it anew.

## Main definitions

* `RuleStore.block`, `RuleStore.unblock`: change the file, which is read, edited, cut to nothing
  and written again while it is open. The new text is complete before the old one is cut.
* `RuleStore.readDocument`, `RuleStore.applyState`: look at it.

A failure before the file is cut leaves its bytes alone.
-/

namespace IntentFirewall

/-- An operation that is refused before the file is looked at. -/
inductive Refusal
  /-- The text is no package name. -/
  | packageName (name : String)
  /-- The intent firewall has no rule element for providers. -/
  | provider (name : String)
  deriving DecidableEq, Repr

/-- The wording of a refusal. -/
def Refusal.message : Refusal → String
  | .packageName name => s!"invalid package name: {Text.quoted name}"
  | .provider name =>
    s!"{name} is a {ComponentKind.provider.name}; the intent firewall has no rule element for it"

/-- Why a rule file could not be read or changed. -/
inductive RuleError
  /-- Access to the file is not allowed. -/
  | privileged (path : String) (cause : StorageError)
  /-- The file is no rule document. -/
  | malformed (cause : DocumentError)
  /-- The file could not be read. -/
  | unreadable (path : String) (cause : StorageError)
  /-- The file could not be written. -/
  | unwritable (path : String) (cause : StorageError)
  /-- The operation makes no sense. -/
  | invalid (refusal : Refusal)
  deriving DecidableEq, Repr

namespace RuleError

/-- The wording of a rule error. -/
def message : RuleError → String
  | .privileged path cause =>
    s!"Could not acquire privileged file access for {path}: {cause.message}"
  | .malformed cause => s!"Malformed rules file: {cause.message}"
  | .unreadable path cause => s!"Failed to read rules file {path}: {cause.message}"
  | .unwritable path cause => s!"Failed to write rules file {path}: {cause.message}"
  | .invalid refusal => s!"Invalid operation: {refusal.message}"

/-- The error of a file that could not be reached. -/
def acquire (path : String) (cause : StorageError) : RuleError :=
  match cause with
  | .permissionDenied _ => .privileged path cause
  | _ => .unreadable path cause

end RuleError

/-! ## Edits of a document -/

/-- Where rule files lie. -/
structure RuleStore where
  /-- The directory of the rule files. -/
  rulesDir : String
  deriving DecidableEq, Repr

/-- What became of trackers that were to be unblocked. -/
inductive Unblocked
  /-- Their filters are gone; the trackers are given back without flags. -/
  | done (trackers : List Tracker)
  /-- There is no rule file. -/
  | noRulesFile
  deriving DecidableEq, Repr

namespace RuleStore

/-- The path of the rule file of a package. -/
def rulesPath (store : RuleStore) (packageName : String) : Except RuleError String :=
  if isPackageName packageName then .ok (Path.join store.rulesDir (packageName ++ ".xml"))
  else .error (.invalid (.packageName packageName))

/-- An edit of a document, with what is to be told about it. -/
abbrev Edit (α : Type) := Document → α × Document

/-- The edit that blocks components one after the other. It tells of each whether its rule logs
once it has been blocked. -/
def blockAll : List (RuleTag × String) → Edit (List Bool)
  | [], d => ([], d)
  | (tag, filter) :: rest, d =>
    let blocked := d.block tag filter
    let (flags, final) := blockAll rest blocked
    ((blocked.blockingState tag filter).getD false :: flags, final)

/-- The edit that takes out filters one after the other. -/
def removeAll (filters : List String) : Edit Unit :=
  fun d => ((), filters.foldl Document.withoutFilters d)

/-- The rule element and the filter of each tracker; providers have none. -/
def ruleEntries (packageName : String) :
    List Tracker → Except RuleError (List (RuleTag × String))
  | [] => .ok []
  | t :: rest =>
    match RuleTag.forKind? t.kind with
    | none => .error (.invalid (.provider t.componentName))
    | some tag =>
      match ruleEntries packageName rest with
      | .error e => .error e
      | .ok entries => .ok ((tag, t.filterName packageName) :: entries)

/-! ## Operations on the file -/

section

variable {σ : Type} [Storage σ]

/-- Replaces the bytes of an open file and closes it. -/
def replaceBytes (path : String) (h : Handle) (bytes : List UInt8) (s : σ) :
    Except RuleError Unit × σ :=
  match Storage.truncate h 0 s with
  | (.error e, s) => (.error (.unwritable path e), s)
  | (.ok h, s) =>
    match Storage.write h bytes s with
    | (.error e, s) => (.error (.unwritable path e), s)
    | (.ok h, s) =>
      match Storage.close h s with
      | (.error e, s) => (.error (.unwritable path e), s)
      | (.ok (), s) => (.ok (), s)

/-- Edits the rule file at a path, which is created if it is missing. -/
def transact {α : Type} (path : String) (edit : Edit α) (s : σ) : Except RuleError α × σ :=
  match Storage.openFile path s with
  | (.error e, s) => (.error (.acquire path e), s)
  | (.ok h, s) =>
    match Storage.readToEnd h s with
    | (.error e, s) => (.error (.unreadable path e), s)
    | (.ok (bytes, h), s) =>
      match Document.ofBytes bytes with
      | .error e => (.error (.malformed e), s)
      | .ok document =>
        let (answer, edited) := edit document
        -- Up to here the bytes of the file are what they were.
        match replaceBytes path h edited.toBytes s with
        | (.error e, s) => (.error e, s)
        | (.ok (), s) => (.ok answer, s)

/-- Blocks trackers, each under the rule element of its kind. A provider among them is refused
before the file is looked at; without trackers there is nothing to do. -/
def block (store : RuleStore) (packageName : String) (trackers : List Tracker) (s : σ) :
    Except RuleError (List Tracker) × σ :=
  match ruleEntries packageName trackers with
  | .error e => (.error e, s)
  | .ok [] => (.ok [], s)
  | .ok entries =>
    match store.rulesPath packageName with
    | .error e => (.error e, s)
    | .ok path =>
      match transact path (blockAll entries) s with
      | (.error e, s) => (.error e, s)
      | (.ok flags, s) =>
        (.ok (trackers.zipWith (fun t logged => t.withState (some logged)) flags), s)

/-- Takes the filters of trackers out of the rule file, wherever they stand. -/
def unblock (store : RuleStore) (packageName : String) (trackers : List Tracker) (s : σ) :
    Except RuleError Unblocked × σ :=
  match store.rulesPath packageName with
  | .error e => (.error e, s)
  | .ok path =>
    match Storage.isFile path s with
    | (.error e, s) => (.error (.acquire path e), s)
    | (.ok false, s) => (.ok .noRulesFile, s)
    | (.ok true, s) =>
      match transact path (removeAll (trackers.map (·.filterName packageName))) s with
      | (.error e, s) => (.error e, s)
      | (.ok (), s) => (.ok (.done (trackers.map (·.withState none))), s)

/-- The rule document of a package, if there is a rule file. -/
def readDocument (store : RuleStore) (packageName : String) (s : σ) :
    Except RuleError (Option Document) × σ :=
  match store.rulesPath packageName with
  | .error e => (.error e, s)
  | .ok path =>
    match Storage.isFile path s with
    | (.error e, s) => (.error (.acquire path e), s)
    | (.ok false, s) => (.ok none, s)
    | (.ok true, s) =>
      match Storage.readAll path s with
      | (.error e, s) => (.error (.acquire path e), s)
      | (.ok bytes, s) =>
        match Document.ofBytes bytes with
        | .error e => (.error (.malformed e), s)
        | .ok document => (.ok (some document), s)

/-- The state that a document gives a tracker: whether its rule logs, if there is one. -/
def stateIn (packageName : String) (document : Option Document) (t : Tracker) : Option Bool :=
  match document, RuleTag.forKind? t.kind with
  | some document, some tag => document.blockingState tag (t.filterName packageName)
  | _, _ => none

/-- The trackers with the state that the rule file gives them. -/
def applyState (store : RuleStore) (packageName : String) (trackers : List Tracker) (s : σ) :
    Except RuleError (List Tracker) × σ :=
  match store.readDocument packageName s with
  | (.error e, s) => (.error e, s)
  | (.ok document, s) =>
    (.ok (trackers.map fun t => t.withState (stateIn packageName document t)), s)

end

end RuleStore
end IntentFirewall
