/-
The program.

It reads the settings, prints what the command comes to and keeps what is to be kept; all of that
is decided elsewhere.  Errors and complaints about the arguments go to standard error.  Serving is
left out: there is no socket here to listen at, so the command for it fails.
-/
import Reckoner.CommandLine.Plan

namespace Reckoner

/-- The file with the settings, in the environment of the program. -/
def settingsFile (i : Invocation) : IO (Option String) := do
  let usual := Settings.usualFile? (← IO.getEnv "XDG_CONFIG_HOME") (← IO.getEnv "HOME")
  return i.settingsFile? (← IO.getEnv "UNIT_CALC_SETTINGS") usual

/-- The content of a file, if it can be read. -/
def contentOf (file : String) : IO (Option ByteArray) :=
  return (← (IO.FS.readBinFile file).toBaseIO).toOption

/-- Does an action by which a file is replaced. -/
def attempt {α : Type} (a : Disk.Action) (act : IO α) : ExceptT SettingsError IO α := do
  match ← act.toBaseIO with
  | .ok x => return x
  | .error e => throw (.ofFailed a (toString e))

/-- Replaces a file as a whole by way of a temporary file beside it. -/
def replaceContent (file : String) (content : ByteArray) : ExceptT SettingsError IO Unit := do
  let path := file.splitOn "/"
  let directory := "/".intercalate path.dropLast
  let temporary := "/".intercalate (Disk.temporary path)
  unless directory.isEmpty do
    attempt .createDirectories (IO.FS.createDirAll directory)
  try
    let handle ← attempt .create (IO.FS.Handle.mk temporary .write)
    attempt .write (handle.write content)
    attempt .flush handle.flush
    attempt .rename (IO.FS.rename temporary file)
  catch e =>
    let _ ← (IO.FS.removeFile temporary).toBaseIO
    throw e

/-- Keeps settings in a file, and tells why not if that fails. -/
def keep (file : String) (s : Settings) : IO (Option Failure) := do
  match ← replaceContent file s.content with
  | .ok () => return none
  | .error e => return some (.settings e)

/-- Prints a text and, if there is an error, a complaint about it; returns the exit code. -/
def report (text : String) (error : Option Failure) : IO UInt32 := do
  IO.print text
  match error with
  | none => return 0
  | some e =>
    IO.eprint e.complaint
    return 1

/-- Carries out a plan with the settings in a file, and returns the exit code. -/
def follow (file : String) : Plan → IO UInt32
  | .print text => report text none
  | .fail text e => report text (some e)
  | .printThenKeep text s => do
    let code ← report text none
    let _ ← keep file s
    return code
  | .keepThenPrint s text => do
    match ← keep file s with
    | none => report text none
    | some e => report "" (some e)

/-- Executes a command, and returns the exit code. -/
def executeCommand (i : Invocation) : IO UInt32 := do
  match i.command with
  | .serve config => report "" (some (.validation ("cannot listen at " ++ config.bindAddress)))
  | command =>
    let file? ← settingsFile i
    let store ← file?.mapM fun file => return (Settings.ofContent (← contentOf file), file)
    follow (file?.getD "") (.ofStore store command)

end Reckoner

/-- Runs the program with its arguments. -/
def main (args : List String) : IO UInt32 := do
  match Reckoner.Command.ofArgs args with
  | .ok i => Reckoner.executeCommand i
  | .error e =>
    IO.eprintln ("error: " ++ e.name)
    return e.exitCode.toUInt32
