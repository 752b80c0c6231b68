/-
What can go wrong with settings.
-/

namespace Reckoner

/-- Why a setting was not changed or not kept. -/
inductive SettingsError where
  /-- There is no directory for the settings of this user. -/
  | noDirectory
  /-- The file could not be written, with the reason in words. -/
  | unwritable (reason : String)
  /-- No setting has the given name. -/
  | unknownKey (key : String)
  /-- The setting cannot have the given value. -/
  | invalidValue (key value : String)
  deriving DecidableEq, Repr

/-- The text of the error. -/
def SettingsError.message : SettingsError → String
  | noDirectory => "Failed to determine config directory"
  | unwritable reason => "Failed to write settings file: " ++ reason
  | unknownKey key => "Unknown setting: " ++ key
  | invalidValue key value => "Invalid value for " ++ key ++ ": " ++ value

end Reckoner
