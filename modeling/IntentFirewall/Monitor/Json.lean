import IntentFirewall.Monitor.Basic
import IntentFirewall.Tracker.Json

/-!
# Answers of a monitor as JSON

How warnings, scan reports, outcomes and rule sets are written.
-/

namespace IntentFirewall

open Json

/-- A warning as JSON. -/
def Warning.toJson : Warning → Value
  | .noTrackers => .object [("kind", .text "no_trackers")]
  | .noRulesFile => .object [("kind", .text "no_rules_file")]
  | .failure message => .object [("kind", .text "failure"), ("message", .text message)]

/-- The fields of a scan report. -/
def ScanReport.fields (r : ScanReport) : List (String × Value) :=
  [("package_name", .text r.packageName), ("trackers", .array (r.trackers.map Tracker.toJson)),
    ("scanned", .count r.scanned), ("matched", .count r.matched), ("keyword", .text r.keyword),
    ("rule_state_error", .ofText? (r.ruleFailure.map RuleError.message))]

/-- A scan report as JSON. -/
def ScanReport.toJson (r : ScanReport) : Value := .object r.fields

/-- An outcome as JSON. Its first field tells which one it is. -/
def Outcome.toJson : Outcome → Value
  | .updated u =>
    .object [("outcome", .text "updated"), ("tracker", u.tracker.toJson),
      ("position", .count u.position)]
  | .rescanned report => .object (("outcome", .text "rescanned") :: report.fields)
  | .noRulesFile => .object [("outcome", .text "no_rules_file")]

/-- A rule set as JSON. -/
def RuleSet.toJson (r : RuleSet) : Value :=
  .object [("tag", .text r.tag.name), ("block", .flag r.block), ("log", .flag r.log),
    ("filters", .ofTexts r.filters)]

end IntentFirewall
