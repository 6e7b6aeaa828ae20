import IntentFirewall.Command.Reply

/-!
# The program

A run of the program takes arguments and the files on a disk to an exit code, what is printed, and
the files as they are then.

* `run`: one run of the program.
* `inspected`: the paths that a run looks at.
-/

namespace IntentFirewall.Command

/-- What a run of the program shows. -/
structure Result where
  /-- Zero for success, one for failure, two for arguments that make no sense. -/
  exitCode : UInt8
  /-- What is printed. -/
  output : String
  /-- What is said about a failure, apart from the output. -/
  complaint : String
  deriving DecidableEq, Repr

/-- The version of the program. -/
def versionText : String := "trackwall 0.1.0\n"

/-- How to use the program. -/
def helpText : String :=
  "Find tracker components in Android packages and block them with the intent firewall\n\n" ++
  "Usage: trackwall [OPTIONS] <COMMAND>\n\n" ++
  "Commands:\n" ++
  "  scan PACKAGE                     Scan a package for tracker components\n" ++
  "  block PACKAGE COMPONENT...       Block tracker components\n" ++
  "  unblock PACKAGE COMPONENT...     Remove blocking rules for tracker components\n" ++
  "  rules PACKAGE                    Show the rule file of a package\n\n" ++
  "Options:\n" ++
  "  -c, --config FILE      JSON configuration file\n" ++
  "      --rules-dir DIR    Override the rule file directory\n" ++
  "      --privileged       Read and write rule files\n" ++
  "  -a, --archive PATH     Decoded manifest to use if the package is not installed\n" ++
  "  -k, --keyword TEXT     Only show trackers that contain this\n" ++
  "  -h, --help             Print help\n" ++
  "  -V, --version          Print version\n"

namespace Invocation

/-- The configuration in the file that an invocation names, or else the default. -/
def fileConfig (i : Invocation) (t : FileTree) : Except ConfigError Config :=
  match i.configPath with
  | none => .ok .default
  | some path => Config.load path t

/-- The configuration of an invocation, whose options go before that of the file. -/
def config (i : Invocation) (t : FileTree) : Except ConfigError Config :=
  match i.fileConfig t with
  | .error e => .error e
  | .ok c =>
    .ok
      { c with
        rulesDir := i.rulesDir.getD c.rulesDir
        usePrivilegedAccess := i.privileged || c.usePrivilegedAccess }

/-- The monitor of an invocation. -/
def monitor (i : Invocation) (t : FileTree) : Except SetupError (Monitor FileTree) :=
  match i.config t with
  | .error e => .error (.config e)
  | .ok c => Monitor.ofConfig c i.package t

end Invocation

/-- The result of a run that stops before anything is done. -/
def Stop.result : Stop → Result
  | .help => ⟨0, helpText, ""⟩
  | .version => ⟨0, versionText, ""⟩
  | .usage cause => ⟨2, "", s!"error: {cause.message}"⟩

/-- The result of a run in which nothing could be set up. -/
def setupFailure (e : SetupError) : Result :=
  ⟨1, "", "error: " ++ e.message?.getD "malformed JSON"⟩

/-- The result of a run that has carried out a command. -/
def resultOf (outcome : Except CommandError Reply) : Result :=
  ⟨if outcome.toBool then 0 else 1, (answer outcome).pretty ++ "\n", ""⟩

/-- One run of the program. -/
def run (arguments : List String) (t : FileTree) : Result × FileTree :=
  match Invocation.parse arguments with
  | .error stop => (stop.result, t)
  | .ok i =>
    match i.monitor t with
    | .error e => (setupFailure e, t)
    | .ok m =>
      let (outcome, s) := i.action.perform m (.start t)
      (resultOf outcome, s.storage)

/-- The paths that a command looks at, given its configuration. -/
def Invocation.inspectedWith (i : Invocation) (c : Config) : List String :=
  c.signaturesPath.toList ++
    (ComponentSource.installedPath? c.manifestsDir i.package.packageName).toList ++
    (i.package.archivePath.toList.flatMap fun path =>
      [path, Path.join path ComponentSource.manifestFile]) ++
    (((Monitor.rulesOf c).map fun store => store.rulesPath i.package.packageName).bind
      Except.toOption).toList

/-- The paths that a run of the program looks at, and those on the way to them, as far as the files
known so far tell. Once the configuration file is known these are all of them. -/
def inspected (arguments : List String) (t : FileTree) : List String :=
  match Invocation.parse arguments with
  | .error _ => []
  | .ok i =>
    let others :=
      match i.config t with
      | .error _ => []
      | .ok c => i.inspectedWith c
    (i.configPath.toList ++ others).flatMap Path.onTheWay

end IntentFirewall.Command
