/-
Command lines.

A command has positional values, options with values, and flags for help and version; a command may
instead have subcommands.  Arguments are taken one at a time.  What starts with a hyphen is an
option unless the value that is due may start with a hyphen itself, and everything after `--`
is a value.  The value of an option is judged when the next option or value comes, so that of two
mistakes the first one taken decides.
-/
import Reckoner.Decimal.Reading

-- Powers are the built-in ones, whatever other instances are in scope.
attribute [local instance (high)] instPowNat

namespace Reckoner

/-- What is wrong with a command line. -/
inductive UsageError where
  | missingSubcommand
  | invalidSubcommand
  | missingRequiredArgument
  | unknownArgument
  /-- An option has no value. -/
  | invalidValue
  /-- The value of an option is of the wrong kind. -/
  | valueValidation
  /-- An option is given twice. -/
  | argumentConflict
  /-- A flag is given a value. -/
  | tooManyValues
  | displayHelp
  | displayVersion
  /-- A subcommand is needed and nothing at all was given. -/
  | displayHelpOnMissing
  deriving DecidableEq, Repr

namespace UsageError

/-- The name of the kind of error. -/
def name : UsageError → String
  | missingSubcommand => "MissingSubcommand"
  | invalidSubcommand => "InvalidSubcommand"
  | missingRequiredArgument => "MissingRequiredArgument"
  | unknownArgument => "UnknownArgument"
  | invalidValue => "InvalidValue"
  | valueValidation => "ValueValidation"
  | argumentConflict => "ArgumentConflict"
  | tooManyValues => "TooManyValues"
  | displayHelp => "DisplayHelp"
  | displayVersion => "DisplayVersion"
  | displayHelpOnMissing => "DisplayHelpOnMissingArgumentOrSubcommand"

/-- The exit code of a program that was called so; asking for help is no mistake. -/
def exitCode : UsageError → Nat
  | displayHelp => 0
  | displayVersion => 0
  | _ => 2

end UsageError

/-! ### Values -/

/-- The number that digits denote, if they are below a bound. -/
def naturalBelow? (bound : Nat) (cs : List Char) : Option Nat :=
  match cs with
  | [] => none
  | _ =>
    if cs.all Char.isDigit && DecimalNumeral.natOf cs < bound then some (DecimalNumeral.natOf cs)
    else none

/-- The natural number below a bound that a text stands for, perhaps with a plus sign. -/
def naturalOfText? (bound : Nat) (text : String) : Option Nat :=
  match text.toList with
  | '+' :: cs => naturalBelow? bound cs
  | cs => naturalBelow? bound cs

/-- The same for a text that may also be a negative zero. -/
def integerOfText? (bound : Nat) (text : String) : Option Nat :=
  match text.toList with
  | '-' :: cs => (naturalBelow? bound cs).filter (· == 0)
  | _ => naturalOfText? bound text

/-- What the value of an option has to be. -/
inductive ValueKind where
  | text
  /-- A text that is not empty. -/
  | path
  /-- A natural number of 16 bits. -/
  | port
  /-- A natural number of 32 bits. -/
  | bits
  /-- A natural number of 64 bits. -/
  | count
  | number
  deriving DecidableEq

/-- Why a text is no value of a kind, if it is none. -/
def ValueKind.problem? (kind : ValueKind) (text : String) : Option UsageError :=
  let wrongUnless (ok : Bool) := if ok then none else some UsageError.valueValidation
  match kind with
  | .text => none
  | .path => if text.isEmpty then some .invalidValue else none
  | .port => wrongUnless (integerOfText? (2 ^ (16 : Nat)) text).isSome
  | .bits => wrongUnless (integerOfText? (2 ^ (32 : Nat)) text).isSome
  | .count => wrongUnless (naturalOfText? (2 ^ (64 : Nat)) text).isSome
  | .number => wrongUnless (Double.ofText? text.toList).isSome

/-! ### Grammars -/

/-- What an option is for. -/
inductive OptionRole where
  | help
  | version
  /-- It takes a value, which may be allowed to start with a hyphen. -/
  | value (kind : ValueKind) (hyphens : Bool)
  deriving DecidableEq

/-- An option. -/
structure OptionRule where
  long : String
  short : Option Char
  role : OptionRole
  deriving DecidableEq

/-- A positional value. -/
structure PositionalRule where
  required : Bool
  /-- Whether the value may start with a hyphen. -/
  hyphens : Bool
  deriving DecidableEq

/-- The grammar of a command. -/
structure CommandRule where
  positionals : List PositionalRule
  options : List OptionRule
  subcommands : List String

namespace CommandRule

/-- The option with a long name. -/
def long? (rule : CommandRule) (name : String) : Option OptionRule :=
  rule.options.find? (·.long == name)

/-- The option with a letter. -/
def short? (rule : CommandRule) (c : Char) : Option OptionRule :=
  rule.options.find? (·.short == some c)

end CommandRule

/-! ### Scanning -/

/-- How far the arguments of a command have been taken. -/
structure Scan where
  /-- The options that have been given a value, with it. -/
  values : List (String × String)
  /-- An option whose value is still to come or to be judged. -/
  pending : Option (OptionRule × Option String)
  /-- The positional values. -/
  positionals : List String
  /-- Whether everything is a value from now on. -/
  trailing : Bool

namespace Scan

/-- Nothing has been taken. -/
def start : Scan := ⟨[], none, [], false⟩

/-- Takes an option with its value. -/
def take (s : Scan) (o : OptionRule) (value : Option String) : Except UsageError Scan :=
  match value, o.role with
  | none, _ => .error .invalidValue
  | some v, .value kind _ =>
    if (s.values.lookup o.long).isSome then .error .argumentConflict
    else match kind.problem? v with
      | some e => .error e
      | none => .ok { s with values := (o.long, v) :: s.values }
  | some _, _ => .ok s

/-- Judges the value of the pending option. -/
def settle (s : Scan) : Except UsageError Scan :=
  match s.pending with
  | none => .ok s
  | some (o, value) => { s with pending := none }.take o value

/-- The option whose value comes next. -/
def awaiting? (s : Scan) : Option OptionRule :=
  match s.pending with
  | some (o, none) => some o
  | _ => none

/-- Whether the option whose value comes next takes one that starts with a hyphen. -/
def awaitsHyphens (s : Scan) : Bool :=
  match s.awaiting? with
  | some ⟨_, _, .value _ hyphens⟩ => hyphens
  | _ => false

/-- Whether the next positional value may start with a hyphen. -/
def positionalHyphens (s : Scan) (rule : CommandRule) : Bool :=
  match rule.positionals[s.positionals.length]? with
  | some p => p.hyphens
  | none => false

/-- Takes an option, with the value attached to it if there is one. -/
def takeOption (s : Scan) (o : OptionRule) (attached : Option String) : Except UsageError Scan :=
  match o.role with
  | .value _ _ =>
    match attached with
    | some v => do (← s.settle).take o (some v)
    | none => do return { (← s.settle) with pending := some (o, none) }
  | .help => do
    if attached.isSome then throw .tooManyValues
    let _ ← s.settle
    throw .displayHelp
  | .version => do
    if attached.isSome then throw .tooManyValues
    let _ ← s.settle
    throw .displayVersion

/-- Takes a positional value. -/
def takePositional (s : Scan) (rule : CommandRule) (arg : String) : Except UsageError Scan :=
  if s.positionals.length < rule.positionals.length then do
    let s ← s.settle
    return { s with positionals := s.positionals ++ [arg] }
  else if rule.subcommands.isEmpty then .error .unknownArgument
  else if s.trailing && rule.subcommands.contains arg then .error .unknownArgument
  else .error .invalidSubcommand

/-- Takes a value, for the option that awaits one or else as a positional one. -/
def takeValue (s : Scan) (rule : CommandRule) (arg : String) : Except UsageError Scan :=
  match s.awaiting? with
  | some o => .ok { s with pending := some (o, some arg) }
  | none => s.takePositional rule arg

/-- Takes an argument that starts with two hyphens, given the rest of it. -/
def takeLong (s : Scan) (rule : CommandRule) (arg : String) (rest : List Char) :
    Except UsageError Scan :=
  if s.awaitsHyphens then s.takeValue rule arg
  else
    let name := String.ofList (rest.takeWhile (· != '='))
    let attached := match rest.dropWhile (· != '=') with
      | _ :: value => some (String.ofList value)
      | [] => none
    match rule.long? name with
    | some o => s.takeOption o attached
    | none => if s.positionalHyphens rule then s.takeValue rule arg else .error .unknownArgument

/-- Takes letters that follow a hyphen. -/
def takeLetters (s : Scan) (rule : CommandRule) : List Char → Except UsageError Scan
  | [] => .ok s
  | c :: rest =>
    match rule.short? c with
    | none => .error .unknownArgument
    | some o =>
      match o.role with
      | .value _ _ =>
        s.takeOption o <| match rest with
          | [] => none
          | '=' :: value => some (String.ofList value)
          | value => some (String.ofList value)
      | _ => s.takeOption o none

/-- Takes an argument that starts with one hyphen, given the rest of it. -/
def takeShort (s : Scan) (rule : CommandRule) (arg : String) (rest : List Char) :
    Except UsageError Scan :=
  if s.awaitsHyphens then s.takeValue rule arg
  else if s.positionalHyphens rule && rest.any fun c => (rule.short? c).isNone then
    s.takeValue rule arg
  else s.takeLetters rule rest

/-- Takes one argument that is no subcommand. -/
def takeArgument (s : Scan) (rule : CommandRule) (arg : String) : Except UsageError Scan :=
  if s.trailing then
    s.takePositional rule arg
  else match arg.toList with
    | ['-', '-'] =>
      if s.awaitsHyphens then s.takeValue rule arg else .ok { s with trailing := true }
    | '-' :: '-' :: rest => s.takeLong rule arg rest
    | ['-'] => s.takeValue rule arg
    | '-' :: rest => s.takeShort rule arg rest
    | _ => s.takeValue rule arg

/-- Takes arguments up to a subcommand, and returns that with the arguments after it. -/
def takeAll (rule : CommandRule) : Scan → List String →
    Except UsageError (Scan × Option (String × List String))
  | s, [] => .ok (s, none)
  | s, arg :: args =>
    if !s.trailing && s.awaiting?.isNone && rule.subcommands.contains arg then
      .ok (s, some (arg, args))
    else
      match s.takeArgument rule arg with
      | .ok s => takeAll rule s args
      | .error e => .error e

end Scan

end Reckoner
