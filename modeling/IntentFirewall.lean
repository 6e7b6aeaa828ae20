import IntentFirewall.Main
import IntentFirewall.Storage.Memory
import IntentFirewall.Storage.Unreliable
import IntentFirewall.Proofs.Rules.RoundTrip
import IntentFirewall.Proofs.Rules.RuleSets
import IntentFirewall.Proofs.Xml.Parsed
import IntentFirewall.Proofs.LastValue
import IntentFirewall.Proofs.Rules.ReadBack
import IntentFirewall.Proofs.Rules.Preservation
import IntentFirewall.Proofs.Storage.Memory
import IntentFirewall.Proofs.Rules.Operations
import IntentFirewall.Proofs.Rules.Block
import IntentFirewall.Proofs.Rules.Groups
import IntentFirewall.Proofs.Rules.History
import IntentFirewall.Proofs.Xml.Brackets
import IntentFirewall.Proofs.Xml.Delimited
import IntentFirewall.Proofs.Storage.Faults
import IntentFirewall.Proofs.Rules.Idempotence
import IntentFirewall.Proofs.Rules.Calls
import IntentFirewall.Proofs.Rules.Reload
import IntentFirewall.Proofs.Rules.Failure
import IntentFirewall.Proofs.Rules.Retry
import IntentFirewall.Proofs.Monitor.InPlace
import IntentFirewall.Proofs.Monitor.Slots
import IntentFirewall.Proofs.Monitor.Listing
import IntentFirewall.Proofs.Monitor.Failure
import IntentFirewall.Proofs.Monitor.Isolation
import IntentFirewall.Proofs.Rules.TornWrite
import IntentFirewall.Proofs.Signature.Lookup
import IntentFirewall.Proofs.Storage.Handles
import IntentFirewall.Proofs.Signature.Overlap
import IntentFirewall.Proofs.Xml.Occurrence
import IntentFirewall.Proofs.Rules.Removal
import IntentFirewall.Proofs.Rules.Frame
import IntentFirewall.Proofs.Rules.Batch
import IntentFirewall.Proofs.Rules.Commutation
import IntentFirewall.Proofs.Monitor.Views
import IntentFirewall.Proofs.Component.Truncation
import IntentFirewall.Proofs.Component.Extraction
import IntentFirewall.Proofs.Storage.Paced
import IntentFirewall.Proofs.Command.Selection
import IntentFirewall.Proofs.Signature.Reload
import IntentFirewall.Proofs.Tracker.Keyword
import IntentFirewall.Proofs.Component.Installed
import IntentFirewall.Proofs.Rules.Parsing
import IntentFirewall.Proofs.Storage.LateReads
