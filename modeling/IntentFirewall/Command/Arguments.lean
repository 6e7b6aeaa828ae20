import IntentFirewall.Text.Substring

/-!
# Command-line arguments

Arguments are read from left to right. An option is written `--name` or, if it has a letter, `-x`;
its value stands behind an equals sign, behind the letter, or in the next argument unless that looks
like an option. Two dashes end the options. Whatever stops the reading does so at once, so what
stands behind it does not matter.

* `Grammar`: the options that are known and what the other arguments are.
* `Arguments.read`: reads arguments up to their end, or up to the name of a command.
-/

namespace IntentFirewall.Command

/-- What an option is followed by, or does. -/
inductive OptionKind
  /-- It is set by being there. -/
  | flag
  /-- It has a text as its value. -/
  | text
  /-- It has a path as its value, which cannot be empty. -/
  | path
  /-- It asks how to use the program. -/
  | help
  /-- It asks for the version of the program. -/
  | version
  deriving DecidableEq, Repr

/-- An option. -/
structure OptionSpec where
  /-- Its name. -/
  name : String
  /-- Its letter, if it has one. -/
  letter : Option Char
  /-- What it is for. -/
  kind : OptionKind
  deriving DecidableEq, Repr

/-- Whether an option has a value. -/
def OptionSpec.hasValue (o : OptionSpec) : Bool := o.kind == .text || o.kind == .path

/-- What the arguments are that are no options. -/
inductive Operands
  /-- The first is the name of a command, which all others belong to. -/
  | command
  /-- There are at most so many. -/
  | atMost (n : Nat)
  /-- There are any number of them. -/
  | any
  deriving DecidableEq, Repr

/-- How arguments are to be read. -/
structure Grammar where
  /-- The options that are known. -/
  options : List OptionSpec
  /-- The other arguments. -/
  operands : Operands
  deriving DecidableEq, Repr

/-! ## Faults -/

/-- Why arguments make no sense. -/
inductive UsageError
  /-- There is no such option. -/
  | unknownOption (argument : String)
  /-- The option has no value. -/
  | missingValue (name : String)
  /-- The option cannot have a value. -/
  | unexpectedValue (name : String)
  /-- The option is there already. -/
  | repeated (name : String)
  /-- There are too many arguments. -/
  | unexpectedArgument (argument : String)
  /-- There is no such command. -/
  | unknownCommand (name : String)
  /-- There is no command. -/
  | missingCommand
  /-- There are too few arguments. -/
  | missingArgument (name : String)
  deriving DecidableEq, Repr

/-- The wording of a usage error. -/
def UsageError.message : UsageError → String
  | .unknownOption argument => s!"unknown option: {argument}"
  | .missingValue name => s!"--{name} needs a value"
  | .unexpectedValue name => s!"--{name} has no value"
  | .repeated name => s!"--{name} is given twice"
  | .unexpectedArgument argument => s!"unexpected argument: {argument}"
  | .unknownCommand name => s!"unknown command: {name}"
  | .missingCommand => "no command is given"
  | .missingArgument name => s!"{name} is missing"

/-- Why nothing is run. -/
inductive Stop
  /-- Someone asks how to use the program. -/
  | help
  /-- Someone asks for its version. -/
  | version
  /-- The arguments make no sense. -/
  | usage (cause : UsageError)
  deriving DecidableEq, Repr

/-! ## Reading -/

/-- What has been read of the arguments. -/
structure Arguments where
  /-- The options with their values, newest first. -/
  given : List (String × String)
  /-- The other arguments, newest first. -/
  newest : List String
  /-- The option whose value is due. -/
  pending : Option OptionSpec
  /-- Whether options are no longer looked for. -/
  ended : Bool
  deriving DecidableEq, Repr

namespace Arguments

/-- Nothing has been read. -/
def none : Arguments := ⟨[], [], .none, false⟩

/-- The value of an option, if it is there. -/
def value? (a : Arguments) (name : String) : Option String := a.given.lookup name

/-- The arguments that are no options, in their order. -/
def operands (a : Arguments) : List String := a.newest.reverse

/-- Takes an option with its value. -/
def give (a : Arguments) (o : OptionSpec) (value : String) : Except Stop Arguments :=
  if (a.value? o.name).isSome then .error (.usage (.repeated o.name))
  else if o.kind = .path ∧ value = "" then .error (.usage (.missingValue o.name))
  else .ok { a with given := (o.name, value) :: a.given, pending := .none }

/-- Takes an option that has no value. -/
def set (a : Arguments) (o : OptionSpec) : Except Stop Arguments :=
  match o.kind with
  | .help => .error .help
  | .version => .error .version
  | _ => a.give o ""

/-- Takes an option by its name, with the value behind the equals sign if there is one. -/
def takeLong (a : Arguments) (options : List OptionSpec) (name : String)
    (attached : Option String) : Except Stop Arguments :=
  match options.find? (fun o => o.name == name) with
  | .none => .error (.usage (.unknownOption name))
  | some o =>
    match o.hasValue, attached with
    | true, some value => a.give o value
    | true, .none => .ok { a with pending := some o }
    | false, some _ => .error (.usage (.unexpectedValue o.name))
    | false, .none => a.set o

/-- Takes options by their letters. What stands behind the letter of an option with a value is the
value. -/
def takeShort (a : Arguments) (options : List OptionSpec) : List Char → Except Stop Arguments
  | [] => .ok a
  | c :: cs =>
    match options.find? (fun o => o.letter == some c) with
    | .none => .error (.usage (.unknownOption (String.ofList ['-', c])))
    | some o =>
      if o.hasValue then
        match cs with
        | [] => .ok { a with pending := some o }
        | '=' :: value => a.give o (String.ofList value)
        | value => a.give o (String.ofList value)
      else
        match a.set o with
        | .error stop => .error stop
        | .ok a => a.takeShort options cs

/-- Whether an argument looks like an option, which a single dash does not. -/
def isOption (argument : String) : Bool :=
  match argument.toList with
  | '-' :: _ :: _ => true
  | _ => false

/-- Takes an argument that looks like an option. -/
def takeOption (a : Arguments) (options : List OptionSpec) (argument : String) :
    Except Stop Arguments :=
  match argument.toList with
  | ['-', '-'] => .ok { a with ended := true }
  | '-' :: '-' :: long =>
    let name := String.ofList (long.takeWhile (· != '='))
    match long.dropWhile (· != '=') with
    | [] => a.takeLong options name .none
    | _ :: value => a.takeLong options name (some (String.ofList value))
  | _ :: letters => a.takeShort options letters
  | [] => .ok a

/-- Takes an argument that is no option and no command. -/
def takeOperand (a : Arguments) (operands : Operands) (argument : String) :
    Except Stop Arguments :=
  let taken : Arguments := { a with newest := argument :: a.newest }
  match operands with
  | .any => .ok taken
  | .atMost n =>
    if a.newest.length < n then .ok taken
    else .error (.usage (.unexpectedArgument argument))
  | .command => .error (.usage (.unexpectedArgument argument))

/-- Reads arguments, given what has been read before. If they contain a command, it is given back
with the arguments behind it. -/
def read (g : Grammar) (a : Arguments) : List String → Except Stop (Arguments × List String)
  | [] =>
    match a.pending with
    | some o => .error (.usage (.missingValue o.name))
    | .none => .ok (a, [])
  | argument :: rest =>
    match a.pending with
    | some o =>
      if isOption argument then .error (.usage (.missingValue o.name))
      else
        match a.give o argument with
        | .error stop => .error stop
        | .ok a => read g a rest
    | .none =>
      if isOption argument && !a.ended then
        match a.takeOption g.options argument with
        | .error stop => .error stop
        | .ok a => read g a rest
      else if g.operands = .command ∧ a.ended = false then .ok (a, argument :: rest)
      else
        match a.takeOperand g.operands argument with
        | .error stop => .error stop
        | .ok a => read g a rest

end Arguments
end IntentFirewall.Command
