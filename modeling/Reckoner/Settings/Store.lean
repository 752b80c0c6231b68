/-
Keeping settings in a file.

Loading never fails: a file that is absent, unreadable or no JSON counts as that of a new
user.  Saving replaces the file as a whole.
-/
import Reckoner.Json.Reader
import Reckoner.Settings.Basic
import Reckoner.Settings.Disk

namespace Reckoner

namespace Settings

/-- The settings that a stored text holds. -/
def ofText (text : String) : Settings :=
  match Json.read? text with
  | some value => ofJson value
  | none => initial

/-- The settings in a file that may be absent or hold no text. -/
def ofContent : Option ByteArray → Settings
  | some content =>
    match String.fromUTF8? content with
    | some text => ofText text
    | none => initial
  | none => initial

/-- The content of the file in which settings are stored. -/
def content (s : Settings) : ByteArray := s.print.toUTF8

/-- The file for the settings of a user who names none: in the user's directory for configuration
if that is known by its full path, and else below the user's own directory. -/
def usualFile? (configuration home : Option String) : Option String :=
  let known := configuration.filter (·.startsWith "/")
  let below := (home.filter (· ≠ "")).map (· ++ "/.config")
  (known <|> below).map (· ++ "/unit-calc/settings.json")

end Settings

/-- Why settings were not kept, given the action that failed and what the system says of it. -/
def SettingsError.ofFailed (a : Disk.Action) (words : String) : SettingsError :=
  match a with
  | .createDirectories => .unwritable ("Failed to create config directory: " ++ words)
  | .create | .write | .flush | .sync | .rename => .unwritable words

namespace Disk

/-- The settings stored in a file. -/
def loadSettings (d : Disk) (p : FilePath) : Settings := .ofContent (d.content? p)

/-- Stores settings in a file. -/
def saveSettings (faults : Faults) (p : FilePath) (s : Settings) (d : Disk) : Run :=
  replaceFile faults p s.content d

/-- Stores the settings of a new user in a file. -/
def resetSettings (faults : Faults) (p : FilePath) (d : Disk) : Run :=
  saveSettings faults p .initial d

end Disk

end Reckoner
