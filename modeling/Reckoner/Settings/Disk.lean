/-
A disk, and the steps by which a file on it is replaced.

A disk maps paths to files and directories.  Each step succeeds or fails for a reason on
the disk, or because of a fault that comes from outside; a write that fails may have
written a part.  Renaming is atomic.
-/

-- Contents are compared by the built-in instance, whatever others are in scope.
attribute [local instance (high)] ByteArray.instDecidableEq

namespace Reckoner

/-- A path below the root, as the names from the root on. -/
abbrev FilePath := List String

/-- What a path leads to. -/
inductive DiskNode where
  | file (content : ByteArray)
  | directory
  deriving DecidableEq

/-- A disk: what is found below its root. -/
structure Disk where
  nodes : List (FilePath × DiskNode)

namespace Disk

/-- What is found at a path; the root is a directory. -/
def find? (d : Disk) (p : FilePath) : Option DiskNode :=
  if p = [] then some .directory else d.nodes.lookup p

/-- The disk without what is at a path. -/
def erase (d : Disk) (p : FilePath) : Disk := ⟨d.nodes.filter (·.1 != p)⟩

/-- The disk with something put at a path. -/
def put (d : Disk) (p : FilePath) (n : DiskNode) : Disk := ⟨(p, n) :: (d.erase p).nodes⟩

/-- The content of the file at a path. -/
def content? (d : Disk) (p : FilePath) : Option ByteArray :=
  match d.find? p with
  | some (.file content) => some content
  | _ => none

/-- The text of the file at a path. -/
def text? (d : Disk) (p : FilePath) : Option String := (d.content? p).bind String.fromUTF8?

/-! ### Faults -/

/-- What is done, one after the other, to replace a file. -/
inductive Action where
  | createDirectories
  | create
  | write
  | flush
  | sync
  | rename
  deriving DecidableEq, Repr

/-- Which steps fail for reasons outside the disk. -/
structure Faults where
  /-- How many of the directories are there before creating them fails, if it does. -/
  directories : Option Nat
  create : Bool
  /-- How many bytes are written before writing fails, if it does. -/
  write : Option Nat
  flush : Bool
  sync : Bool
  rename : Bool
  remove : Bool
  /-- What the system says of an action that fails, for whatever reason. -/
  words : Action → String

/-- Nothing fails for reasons outside the disk. -/
def Faults.none : Faults :=
  ⟨.none, false, .none, false, false, false, false, fun _ => "not possible on this disk"⟩

/-! ### Steps -/

/-- A step leaves a disk behind and tells whether it succeeded. -/
abbrev Step := Disk → Disk × Bool

/-- Creates the directories along the rest of a path, given what comes before it. -/
def createBelow (before : FilePath) : FilePath → Step
  | [], d => (d, true)
  | name :: rest, d =>
    let p := before ++ [name]
    match d.find? p with
    | some .directory => createBelow p rest d
    | some (.file _) => (d, false)
    | none => createBelow p rest (d.put p .directory)

/-- Creates a directory and those that it is in. -/
def createDirectories (faults : Faults) (p : FilePath) : Step := fun d =>
  match faults.directories with
  | some count => ((createBelow [] (p.take count) d).1, false)
  | none => createBelow [] p d

/-- Creates an empty file, or empties it. -/
def create (faults : Faults) (p : FilePath) : Step := fun d =>
  if faults.create || d.find? p.dropLast != some .directory || d.find? p == some .directory then
    (d, false)
  else (d.put p (.file ByteArray.empty), true)

/-- Writes the content of a file that has just been created. -/
def write (faults : Faults) (p : FilePath) (content : ByteArray) : Step := fun d =>
  match faults.write with
  | some count => (d.put p (.file (content.extract 0 count)), false)
  | none => (d.put p (.file content), true)

/-- Hands what was written on to the disk. -/
def flush (faults : Faults) : Step := fun d => (d, !faults.flush)

/-- Waits until the disk has what was written. -/
def sync (faults : Faults) : Step := fun d => (d, !faults.sync)

/-- Moves a file to the place of another, or to a free place. -/
def rename (faults : Faults) (source target : FilePath) : Step := fun d =>
  match d.content? source with
  | some content =>
    if faults.rename || d.find? target == some .directory then (d, false)
    else ((d.erase source).put target (.file content), true)
  | none => (d, false)

/-- Removes a file. -/
def remove (faults : Faults) (p : FilePath) : Step := fun d =>
  if faults.remove || (d.content? p).isNone then (d, false) else (d.erase p, true)

/-! ### Runs -/

/-- The states that a disk passes through, and where it stopped if not all went well. -/
structure Run where
  /-- The state at the start. -/
  first : Disk
  /-- The state after each step that was tried. -/
  later : List Disk
  /-- The action that failed. -/
  failed : Option Action

namespace Run

/-- Whether all went well. -/
def ok (r : Run) : Bool := r.failed.isNone

/-- The state at the end. -/
def last (r : Run) : Disk := r.later.getLast?.getD r.first

/-- All states in their order. -/
def states (r : Run) : List Disk := r.first :: r.later

end Run

/-- Actions one after the other up to the first one whose step fails. -/
def runAll (step : Action → Step) : List Action → Disk → Run
  | [], d => ⟨d, [], none⟩
  | a :: actions, d =>
    match step a d with
    | (next, false) => ⟨d, [next], some a⟩
    | (next, true) =>
      let rest := runAll step actions next
      ⟨d, next :: rest.later, rest.failed⟩

/-- The path of the file that is written beside a file before it replaces that; the root, which
has no name, lends it that of the settings. -/
def temporary (p : FilePath) : FilePath := p.dropLast ++ [p.getLast?.getD "settings.json" ++ ".tmp"]

/-- The step by which an action is done when a file is replaced. -/
def Action.step (faults : Faults) (p : FilePath) (content : ByteArray) : Action → Step
  | createDirectories => Disk.createDirectories faults p.dropLast
  | create => Disk.create faults (temporary p)
  | write => Disk.write faults (temporary p) content
  | flush => Disk.flush faults
  | sync => Disk.sync faults
  | rename => Disk.rename faults (temporary p) p

/-- Replaces a file as a whole. The content is written to a temporary file beside it, which then
takes its place; if anything fails before that the temporary file is removed. -/
def replaceFile (faults : Faults) (p : FilePath) (content : ByteArray) (d : Disk) : Run :=
  let step := Action.step faults p content
  let prepared := runAll step [.createDirectories] d
  if !prepared.ok then prepared
  else
    let written := runAll step [.create, .write, .flush, .sync, .rename] prepared.last
    if written.ok then ⟨d, prepared.later ++ written.later, none⟩
    else
      let (cleaned, _) := remove faults (temporary p) written.last
      ⟨d, prepared.later ++ written.later ++ [cleaned], written.failed⟩

end Disk

end Reckoner
