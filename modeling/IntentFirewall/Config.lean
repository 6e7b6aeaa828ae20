import IntentFirewall.Json.Decode
import IntentFirewall.Storage.FileTree

/-!
# Configuration

Where things lie and whether rule files may be touched. A configuration file is JSON; what it
leaves out keeps its default.
-/

namespace IntentFirewall

/-- Where things lie. -/
structure Config where
  /-- The directory of the rule files. -/
  rulesDir : String
  /-- Whether rule files may be read and written. -/
  usePrivilegedAccess : Bool
  /-- The signature file, if not the built-in signatures are used. -/
  signaturesPath : Option String
  /-- The directory of the manifests of installed packages. -/
  manifestsDir : String
  deriving DecidableEq, Repr

/-- Why there is no configuration. -/
inductive ConfigError
  /-- The file cannot be read. -/
  | file (path : String) (cause : FileError)
  /-- The text is no configuration. -/
  | json (cause : Json.Error)
  /-- The directory of the rule files is empty. -/
  | noRulesDir
  deriving DecidableEq, Repr

/-- The wording of a configuration error; that of a malformed text depends on the reader. -/
def ConfigError.message? : ConfigError → Option String
  | .file path cause => some s!"Configuration error: {path}: {cause.message}"
  | .json _ => none
  | .noRulesDir => some "Configuration error: rules_dir must not be empty"

namespace Config

/-- The configuration without a file. -/
def default : Config where
  rulesDir := "/data/system/ifw"
  usePrivilegedAccess := false
  signaturesPath := none
  manifestsDir := "/data/local/tmp/trackwall/manifests"

open Json

/-- The fields of a configuration. -/
def fields : List Field :=
  [.lacking "rules_dir" text, .lacking "use_privileged_access" flag,
    .lacking "signatures_path" (optional text), .lacking "manifests_dir" text]

/-- Decodes a configuration. -/
def decoder : Decoder Config := fun t => do
  let r ← readRecord fields t
  let rulesDir ← r.getD "rules_dir" text default.rulesDir
  let usePrivilegedAccess ← r.getD "use_privileged_access" flag default.usePrivilegedAccess
  let signaturesPath ← r.getD "signatures_path" (optional text) default.signaturesPath
  let manifestsDir ← r.getD "manifests_dir" text default.manifestsDir
  .ok ⟨rulesDir, usePrivilegedAccess, signaturesPath, manifestsDir⟩

/-- The configuration in the file at a path. -/
def load (path : String) (t : FileTree) : Except ConfigError Config :=
  match t.readText path with
  | .error e => .error (.file path e)
  | .ok input =>
    match Json.decode decoder input with
    | .error e => .error (.json e)
    | .ok config => if config.rulesDir = "" then .error .noRulesDir else .ok config

end Config
end IntentFirewall
