/-
The commands of the program.

Each command has a grammar, and the values that were found by it make the command.  The option
for the settings file may be given at any level; the innermost one counts.
-/
import Reckoner.CommandLine.Grammar
import Reckoner.Graph.Sample
import Reckoner.Http.Server
import Reckoner.Programmer.Word

-- Powers are the built-in ones, whatever other instances are in scope.
attribute [local instance (high)] instPowNat

namespace Reckoner

/-- What is to be plotted. -/
structure GraphCommand where
  expression : String
  xMin : Double
  xMax : Double
  samples : Nat
  /-- The ends of the visible range, if they are given. -/
  ends : Option (Double × Double)

/-- A command. -/
inductive Command where
  | serve (config : ServerConfig)
  | convert (quantity target : String) (category : Option String)
  | all (quantity : String) (category : Option String)
  | calculate (expression : String)
  | graph (g : GraphCommand)
  | prog (lhs op : String) (rhs : Option String) (radix : String) (bits : Nat)
  | units (category : Option String)
  | showSettings
  | resetSettings
  | setSetting (key value : String)

/-- Whether a command has to do with the settings. -/
def Command.needsSettings : Command → Bool
  | convert _ _ _ | all _ _ | showSettings | resetSettings | setSetting _ _ => true
  | serve _ | calculate _ | graph _ | prog _ _ _ _ _ | units _ => false

/-- A command and the file in which it finds the settings, unless that is the usual one. -/
structure Invocation where
  settings : Option String
  command : Command

/-- The file with the settings: the one that was named, or the one that the environment names, or
the usual one of the user. -/
def Invocation.settingsFile? (i : Invocation) (chosen usual : Option String) : Option String :=
  i.settings <|> chosen <|> usual

/-! ### Grammars -/

namespace CommandRule

/-- The option for the settings file. -/
def settingsOption : OptionRule := ⟨"settings", none, .value .path false⟩

/-- The option for help. -/
def helpOption : OptionRule := ⟨"help", some 'h', .help⟩

/-- A value that has to be given. -/
def required (hyphens : Bool) : PositionalRule := ⟨true, hyphens⟩

/-- A value that may be left out. -/
def optional (hyphens : Bool) : PositionalRule := ⟨false, hyphens⟩

/-- A command without subcommands. -/
def leaf (positionals : List PositionalRule) (options : List OptionRule) : CommandRule :=
  ⟨positionals, options ++ [settingsOption, helpOption], []⟩

/-- A command that is nothing without a subcommand. -/
def branch (options : List OptionRule) (subcommands : List String) : CommandRule :=
  ⟨[], options ++ [settingsOption, helpOption], subcommands ++ ["help"]⟩

/-- The program itself. -/
def program : CommandRule :=
  branch [⟨"version", some 'V', .version⟩]
    ["serve", "convert", "all", "calc", "graph", "prog", "units", "settings"]

/-- Runs the server. -/
def serve : CommandRule :=
  leaf [] [⟨"host", none, .value .text false⟩, ⟨"port", some 'p', .value .port false⟩,
    ⟨"max-graph-samples", none, .value .count false⟩]

/-- The option for a category. -/
def categoryOption : OptionRule := ⟨"category", some 'c', .value .text false⟩

/-- Converts a quantity into a unit. -/
def convert : CommandRule := leaf [required true, required false] [categoryOption]

/-- Converts a quantity into all units. -/
def all : CommandRule := leaf [required true] [categoryOption]

/-- Evaluates an expression. -/
def calculate : CommandRule := leaf [required true] []

/-- Prints the points of a graph. -/
def graph : CommandRule :=
  leaf [required true] [⟨"xmin", none, .value .number true⟩, ⟨"xmax", none, .value .number true⟩,
    ⟨"samples", none, .value .count false⟩, ⟨"ymin", none, .value .number true⟩,
    ⟨"ymax", none, .value .number true⟩]

/-- Operates on words. -/
def prog : CommandRule :=
  leaf [required true, required false, optional true]
    [⟨"radix", some 'r', .value .text false⟩, ⟨"bits", some 'b', .value .bits false⟩]

/-- Lists categories or units. -/
def units : CommandRule := leaf [optional false] []

/-- Shows or changes settings. -/
def settings : CommandRule := branch [] ["show", "reset", "set"]

/-- Changes a setting. -/
def setSetting : CommandRule := leaf [required false, required false] []

end CommandRule

/-! ### From values to commands -/

namespace Scan

/-- The value of an option. -/
def value? (s : Scan) (name : String) : Option String := s.values.lookup name

/-- The value of an option that is a natural number. -/
def natural (s : Scan) (name : String) (fallback : Nat) : Nat :=
  ((s.value? name).bind (integerOfText? (2 ^ (64 : Nat)))).getD fallback

/-- The value of an option that is a number. -/
def number? (s : Scan) (name : String) : Option Double :=
  (s.value? name).bind fun text => Double.ofText? text.toList

end Scan

namespace Command

/-- The values of a command without subcommands. -/
def scanLeaf (rule : CommandRule) (args : List String) : Except UsageError Scan := do
  let (s, _) ← Scan.takeAll rule .start args
  s.settle

/-- The command that values make, if there are enough of them, and the settings file given with
them. -/
def ofLeaf (rule : CommandRule) (args : List String) (make : Scan → List String → Option Command) :
    Except UsageError Invocation := do
  let s ← scanLeaf rule args
  match make s s.positionals with
  | some command => return ⟨s.value? "settings", command⟩
  | none => throw .missingRequiredArgument

/-- The graph that values ask for; of the ends of the visible range both are given or none. -/
def graphOf? (s : Scan) (expression : String) : Option Command :=
  let make (ends : Option (Double × Double)) : Command :=
    .graph ⟨expression, (s.number? "xmin").getD (-10.0), (s.number? "xmax").getD 10.0,
      s.natural "samples" Graph.defaultSamples, ends⟩
  match s.number? "ymin", s.number? "ymax" with
  | some min, some max => some (make (some (min, max)))
  | none, none => some (make none)
  | _, _ => none

/-- Whether help can be asked for by the names of a command and a subcommand. -/
def hasHelp : List String → Bool
  | [] => true
  | [name] => CommandRule.program.subcommands.contains name
  | ["settings", name] => CommandRule.settings.subcommands.contains name
  | _ => false

/-- The outcome of asking for help. -/
def help (path : List String) : UsageError :=
  if hasHelp path then .displayHelp else .invalidSubcommand

/-- What a subcommand that is missing means. -/
def missing (s : Scan) : Except UsageError Invocation := do
  let s ← s.settle
  throw (if s.values.isEmpty then .displayHelpOnMissing else .missingSubcommand)

/-- A subcommand's invocation inside that of the command it belongs to. -/
def within (s : Scan) (inner : Except UsageError Invocation) : Except UsageError Invocation := do
  let i ← inner
  let s ← s.settle
  return { i with settings := i.settings <|> s.value? "settings" }

/-- The command that the arguments after `settings` make. -/
def ofSettingsArgs (args : List String) : Except UsageError Invocation := do
  let (s, sub) ← Scan.takeAll .settings .start args
  match sub with
  | none => missing s
  | some ("show", rest) => within s (ofLeaf (.leaf [] []) rest fun _ _ => some .showSettings)
  | some ("reset", rest) => within s (ofLeaf (.leaf [] []) rest fun _ _ => some .resetSettings)
  | some ("set", rest) =>
    within s <| ofLeaf .setSetting rest fun
      | _, [key, value] => some (.setSetting key value)
      | _, _ => none
  | some (_, path) => throw (help ("settings" :: path))

/-- The command that the arguments after the name of a command make. -/
def ofNameAndArgs (name : String) (args : List String) : Except UsageError Invocation :=
  match name with
  | "serve" =>
    ofLeaf .serve args fun s _ =>
      some (.serve ⟨(s.value? "host").getD ServerConfig.defaultHost,
        s.natural "port" ServerConfig.defaultPort,
        s.natural "max-graph-samples" Graph.defaultMaxSamples⟩)
  | "convert" =>
    ofLeaf .convert args fun
      | s, [quantity, target] => some (.convert quantity target (s.value? "category"))
      | _, _ => none
  | "all" =>
    ofLeaf .all args fun
      | s, [quantity] => some (.all quantity (s.value? "category"))
      | _, _ => none
  | "calc" =>
    ofLeaf .calculate args fun
      | _, [expression] => some (.calculate expression)
      | _, _ => none
  | "graph" =>
    ofLeaf .graph args fun
      | s, [expression] => graphOf? s expression
      | _, _ => none
  | "prog" =>
    let make (s : Scan) (lhs op : String) (rhs : Option String) : Command :=
      .prog lhs op rhs ((s.value? "radix").getD Radix.dec.label)
        (s.natural "bits" WordSize.bits32.bits)
    ofLeaf .prog args fun
      | s, [lhs, op] => some (make s lhs op none)
      | s, [lhs, op, rhs] => some (make s lhs op (some rhs))
      | _, _ => none
  | "units" => ofLeaf .units args fun _ positionals => some (.units positionals.head?)
  | "settings" => ofSettingsArgs args
  | _ => .error (help args)

/-- The command that the program's arguments make. -/
def ofArgs (args : List String) : Except UsageError Invocation := do
  let (s, sub) ← Scan.takeAll .program .start args
  match sub with
  | none => missing s
  | some (name, rest) => within s (ofNameAndArgs name rest)

end Command

end Reckoner
