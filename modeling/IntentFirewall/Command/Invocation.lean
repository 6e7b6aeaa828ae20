import IntentFirewall.Command.Arguments
import IntentFirewall.Component

/-!
# Commands

What the program can be asked to do, and how it is asked on the command line. The options that tell
where things lie may stand before or behind the name of the command; if they stand in both places,
those behind it count.

* `Invocation`: a command with all that belongs to it.
* `Invocation.parse`: the invocation that arguments describe.
-/

namespace IntentFirewall.Command

/-- What is to be done with the trackers of a package. -/
inductive Action
  /-- Find them, with a new keyword if there is one. -/
  | scan (keyword : Option String)
  /-- Block those with the given class names. -/
  | block (components : List String)
  /-- Unblock those with the given class names. -/
  | unblock (components : List String)
  /-- Show the rule file. -/
  | rules
  deriving DecidableEq, Repr

/-- A command with all that belongs to it. -/
structure Invocation where
  /-- The configuration file, if there is one. -/
  configPath : Option String
  /-- The directory of the rule files, if not that of the configuration. -/
  rulesDir : Option String
  /-- Whether rule files may be touched even if the configuration does not say so. -/
  privileged : Bool
  /-- The package. -/
  package : PackageIdentity
  /-- What is to be done. -/
  action : Action
  deriving DecidableEq, Repr

/-- The names of the commands. -/
inductive Verb
  /-- Find trackers. -/
  | scan
  /-- Block trackers. -/
  | block
  /-- Unblock trackers. -/
  | unblock
  /-- Show the rule file. -/
  | rules
  deriving DecidableEq, Repr

/-- The command that a name stands for. -/
def Verb.ofName? : String → Option Verb
  | "scan" => some .scan
  | "block" => some .block
  | "unblock" => some .unblock
  | "rules" => some .rules
  | _ => none

/-- The options that are known everywhere. -/
def commonOptions : List OptionSpec :=
  [⟨"config", some 'c', .path⟩, ⟨"rules-dir", none, .path⟩, ⟨"privileged", none, .flag⟩,
    ⟨"help", some 'h', .help⟩]

/-- The option that tells where the archive of a package is. -/
def archiveOption : OptionSpec := ⟨"archive", some 'a', .path⟩

/-- The option with the keyword of a scan. -/
def keywordOption : OptionSpec := ⟨"keyword", some 'k', .text⟩

/-- The arguments of the program. -/
def programGrammar : Grammar :=
  ⟨⟨"version", some 'V', .version⟩ :: commonOptions, .command⟩

/-- The arguments of a command. -/
def Verb.grammar : Verb → Grammar
  | .scan => ⟨archiveOption :: keywordOption :: commonOptions, .atMost 1⟩
  | .block => ⟨archiveOption :: commonOptions, .any⟩
  | .unblock => ⟨archiveOption :: commonOptions, .any⟩
  | .rules => ⟨commonOptions, .atMost 1⟩

/-- What a command is to do, given its arguments without the package. -/
def Verb.action (a : Arguments) (components : List String) : Verb → Except Stop Action
  | .scan => .ok (.scan (a.value? keywordOption.name))
  | .rules => .ok .rules
  | .block =>
    if components = [] then .error (.usage (.missingArgument "component"))
    else .ok (.block components)
  | .unblock =>
    if components = [] then .error (.usage (.missingArgument "component"))
    else .ok (.unblock components)

namespace Invocation

/-- The invocation of a command, given the arguments before and behind its name. -/
def ofArguments (outer inner : Arguments) (verb : Verb) : Except Stop Invocation :=
  let common (name : String) : Option String := (inner.value? name).or (outer.value? name)
  match inner.operands with
  | [] => .error (.usage (.missingArgument "package"))
  | packageName :: components =>
    match verb.action inner components with
    | .error stop => .error stop
    | .ok action =>
      .ok
        { configPath := common "config"
          rulesDir := common "rules-dir"
          privileged := (common "privileged").isSome
          package := ⟨packageName, inner.value? archiveOption.name⟩
          action }

/-- Why a request for help on the commands with the given names runs nothing. -/
def helpOn : List String → Stop
  | [] => .help
  | name :: rest =>
    if rest = [] ∧ ((Verb.ofName? name).isSome ∨ name = "help") then .help
    else .usage (.unknownCommand name)

/-- The invocation that arguments describe. -/
def parse (arguments : List String) : Except Stop Invocation :=
  match Arguments.none.read programGrammar arguments with
  | .error stop => .error stop
  | .ok (_, []) => .error (.usage .missingCommand)
  | .ok (outer, name :: rest) =>
    match Verb.ofName? name with
    | none => .error (if name = "help" then helpOn rest else .usage (.unknownCommand name))
    | some verb =>
      match Arguments.none.read verb.grammar rest with
      | .error stop => .error stop
      | .ok (inner, _) => ofArguments outer inner verb

end Invocation
end IntentFirewall.Command
