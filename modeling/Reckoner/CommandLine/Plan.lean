/-
What the commands do.

A command works on the settings as they were loaded and says what is to be printed and what is
to be kept, so that printing and keeping are left to its caller.  A converter that remembers the
category it used prints first, and does not mind if that cannot be kept; a command that
changes the settings prints only once they are.
-/
import Reckoner.Amount
import Reckoner.CommandLine.Command
import Reckoner.Graph.Plot
import Reckoner.Quantity
import Reckoner.Settings.Store
import Reckoner.Units.Conversion

namespace Reckoner

/-- What a command comes to.  Every command keeps settings last, when nothing else can fail any
more, so there is no plan to keep something and then to fail. -/
inductive Plan where
  /-- It prints a text. -/
  | print (text : String)
  /-- It prints a text and fails. -/
  | fail (text : String) (e : Failure)
  /-- It prints a text, and keeps settings if it can. -/
  | printThenKeep (text : String) (s : Settings)
  /-- It keeps settings, prints a text if it could, and else fails. -/
  | keepThenPrint (s : Settings) (text : String)

namespace Plan

/-- A text to print, or a failure with nothing printed. -/
def ofExcept : Except Failure String → Plan
  | .ok text => .print text
  | .error e => .fail "" e

/-- Lines of a text. -/
def lines (ls : List String) : String := String.join (ls.map (· ++ "\n"))

/-- A text filled up with blanks to a number of characters. -/
def padded (width : Nat) (s : String) : String :=
  s ++ String.ofList (List.replicate (width - s.length) ' ')

/-! ### Converting -/

/-- The category and position of a unit: in the given category, or else in the default ones, or else
in the first category that knows it. -/
def locateUnit (s : Settings) (category : Option String) (unit : String) :
    Except Failure (Category × Nat) :=
  match category with
  | some name => do
    let c ← Failure.lift .conversion (Category.resolve name)
    let i ← Failure.lift .conversion (c.resolveUnit unit)
    return (c, i)
  | none =>
    let preferred := [CategoryGroup.main, CategoryGroup.misc].findSome? fun group =>
      let c := s.defaultCategory group
      (c.unitIndex? unit).map (c, ·)
    match preferred <|> findUnit? unit with
    | some found => .ok found
    | none => .error (.validation ("Unknown unit: " ++ unit))

/-- A text as a quantity. -/
def readQuantity (text : String) : Except Failure Quantity :=
  Failure.lift (fun e => .validation e.message) (Quantity.read text)

/-- The label of the unit at a position. -/
def label (c : Category) (i : Nat) : String := (c.unitLabel? i).getD ""

/-- Prints a text, and remembers the category that was used. -/
def printAndRemember (s : Settings) (c : Category) (text : String) : Plan :=
  match s.remember? c with
  | some changed => .printThenKeep text changed
  | none => .print text

/-- The line that shows a conversion, and its category. -/
def convertLine (s : Settings) (quantity target : String) (category : Option String) :
    Except Failure (Category × String) := do
  let q ← readQuantity quantity
  let (c, i) ← locateUnit s category q.unit
  let j ← Failure.lift .conversion (c.resolveUnit target)
  let v ← Failure.lift .conversion (c.convertAt i j q.value)
  return (c, Amount.text q.value ++ " " ++ label c i ++ " = " ++ Amount.text v ++ " " ++ label c j)

/-- Converts a quantity into a unit. -/
def convert (s : Settings) (quantity target : String) (category : Option String) : Plan :=
  match convertLine s quantity target category with
  | .ok (c, line) => printAndRemember s c (lines [line])
  | .error e => .fail "" e

/-- The line for one unit in a conversion into all units. -/
def conversionLine : String × Except ConversionError Double → String
  | (unit, .ok v) => "  " ++ padded 32 unit ++ " " ++ Amount.text v
  | (unit, .error e) => "  " ++ padded 32 unit ++ " Error (" ++ e.message ++ ")"

/-- A quantity and where its unit is found. -/
def locateQuantity (s : Settings) (quantity : String) (category : Option String) :
    Except Failure (Double × Category × Nat) := do
  let q ← readQuantity quantity
  let (c, i) ← locateUnit s category q.unit
  return (q.value, c, i)

/-- Converts a quantity into all units of its category. -/
def convertAll (s : Settings) (quantity : String) (category : Option String) : Plan :=
  match locateQuantity s quantity category with
  | .error e => .fail "" e
  | .ok (v, c, i) =>
    let header := c.name ++ ": " ++ Amount.text v ++ " " ++ label c i
    match c.convertAll (label c i) v with
    | .error e => .fail (lines [header]) (.conversion e)
    | .ok results => printAndRemember s c (lines (header :: results.map conversionLine))

/-! ### Calculating -/

/-- Evaluates an expression. -/
def calculate (expression : String) : Plan :=
  .ofExcept <| (Failure.lift .calculation (Calculation.evaluate expression)).map fun v =>
    lines [Amount.text v]

/-- Operates on words. -/
def prog (lhs op : String) (rhs : Option String) (radix : String) (bits : Nat) : Plan :=
  .ofExcept <| Failure.lift .words do
    let r ← Radix.ofName radix
    let w ← WordSize.ofBits bits
    return lines [← evaluateWords lhs op rhs r w]

/-- How the points of a graph are printed: in full and always plainly. -/
def pointStyle : NumberStyle := ⟨.up, none, false, false⟩

/-- The lines of a plot: the visible range and the points. -/
def plotLines (p : Plot) : List String :=
  let header := match p.window with
    | some w => "# y: " ++ Amount.text w.min ++ " .. " ++ Amount.text w.max
    | none => "# no valid points"
  header :: p.points.map fun q => pointStyle.text q.x ++ "\t" ++ pointStyle.text q.y

/-- Prints the points of a graph. -/
def graph (g : GraphCommand) : Plan :=
  .ofExcept <| (Plot.ofText g.expression g.xMin g.xMax g.samples Graph.defaultMaxSamples g.ends).map
    fun p => lines (plotLines p)

/-! ### Listing -/

/-- The line for a category in the list of categories. -/
def categoryLine (c : Category) : String :=
  padded 16 c.name ++ " " ++ padded 5 c.group.name ++ " " ++ toString c.units.length ++ " units"

/-- Lists the units of a category, or all categories. -/
def units (category : Option String) : Plan :=
  match category with
  | some name =>
    .ofExcept <| (Failure.lift .conversion (Category.resolve name)).map fun c => lines c.units
  | none => .print (lines (Category.all.map categoryLine))

/-! ### Settings -/

/-- Changes a setting. -/
def setSetting (s : Settings) (file key value : String) : Plan :=
  match s.set key value with
  | .ok changed => .keepThenPrint changed (lines [key ++ " updated (" ++ file ++ ")"])
  | .error e => .fail "" (.settings e)

/-! ### All commands -/

/-- What a command comes to, given the settings and the name of their file. Serving is not a
matter of printing. -/
def ofCommand (s : Settings) (file : String) : Command → Plan
  | .serve _ => .print ""
  | .convert quantity target category => convert s quantity target category
  | .all quantity category => convertAll s quantity category
  | .calculate expression => calculate expression
  | .graph g => graph g
  | .prog lhs op rhs radix bits => prog lhs op rhs radix bits
  | .units category => units category
  | .showSettings => .print (lines [s.print])
  | .resetSettings => .keepThenPrint .initial (lines ["Settings reset (" ++ file ++ ")"])
  | .setSetting key value => setSetting s file key value

/-- What a command comes to, given the settings and the name of their file if there is one.  A user
may have no directory for it; then a command that has to do with settings fails. -/
def ofStore (store : Option (Settings × String)) (command : Command) : Plan :=
  match store with
  | some (s, file) => ofCommand s file command
  | none =>
    if command.needsSettings then .fail "" (.settings .noDirectory)
    else ofCommand .initial "" command

end Plan

/-- What a command leaves behind. -/
structure Execution where
  printed : String
  error : Option Failure
  disk : Disk

namespace Execution

/-- What is said about the error, if there is one. -/
def complaint (r : Execution) : String :=
  match r.error with
  | some e => e.complaint
  | none => ""

/-- The exit code. -/
def exitCode (r : Execution) : Nat := if r.error.isSome then 1 else 0

end Execution

/-- Carries out a plan on a disk. -/
def Plan.carryOut (faults : Disk.Faults) (p : FilePath) (d : Disk) : Plan → Execution
  | .print text => ⟨text, none, d⟩
  | .fail text e => ⟨text, some e, d⟩
  | .printThenKeep text s => ⟨text, none, (d.saveSettings faults p s).last⟩
  | .keepThenPrint s text =>
    let run := d.saveSettings faults p s
    match run.failed with
    | none => ⟨text, none, run.last⟩
    | some a => ⟨"", some (.settings (.ofFailed a (faults.words a))), run.last⟩

/-- Executes a command with the settings in a file on a disk, the file being called by a name. -/
def Command.execute (c : Command) (faults : Disk.Faults) (p : FilePath) (file : String) (d : Disk) :
    Execution :=
  Plan.carryOut faults p d (Plan.ofStore (some (d.loadSettings p, file)) c)

/-- Executes a command for a user who has no place for settings. -/
def Command.executeWithoutStore (c : Command) (faults : Disk.Faults) (d : Disk) : Execution :=
  Plan.carryOut faults [] d (Plan.ofStore none c)

end Reckoner
