/-
Everything that can go wrong, with its text.
-/
import Reckoner.Expression.Calculation
import Reckoner.Graph.Sample
import Reckoner.Programmer.Word
import Reckoner.Settings.Error
import Reckoner.Units.Error

namespace Reckoner

/-- Why a request or a command failed. -/
inductive Failure where
  | conversion (e : ConversionError)
  | calculation (e : CalculationError)
  | words (e : WordError)
  | graph (e : GraphError)
  | settings (e : SettingsError)
  /-- The request itself could not be understood. -/
  | validation (text : String)
  deriving DecidableEq

namespace Failure

/-- The text of the failure. -/
def message : Failure → String
  | conversion e => e.message
  | calculation e => e.message
  | words e => e.message
  | graph e => e.message
  | settings e => e.message
  | validation text => "Validation Error: " ++ text

/-- The line with which a command reports the failure. -/
def complaint (e : Failure) : String := "error: " ++ e.message ++ "\n"

/-- The outcome of an operation, its errors counted as failures. -/
def lift {ε α : Type} (cause : ε → Failure) : Except ε α → Except Failure α
  | .ok a => .ok a
  | .error e => .error (cause e)

end Failure

end Reckoner
