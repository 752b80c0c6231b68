/-
What can go wrong in a conversion.
-/

namespace Reckoner

/-- Why a conversion has no result. -/
inductive ConversionError where
  /-- No category has the given name. -/
  | unknownCategory (name : String)
  /-- The category has no such unit. -/
  | unknownUnit (category unit : String)
  /-- An intensity that is not positive has no level. -/
  | nonPositiveIntensity
  /-- The value to convert is infinite or no number. -/
  | nonFiniteValue
  deriving DecidableEq, Repr

namespace ConversionError

/-- The text of the error. -/
def message : ConversionError → String
  | unknownCategory name => "Unknown category: " ++ name
  | unknownUnit category unit => "Unknown unit '" ++ unit ++ "' for category " ++ category
  | nonPositiveIntensity => "Intensity must be > 0 for dB"
  | nonFiniteValue => "Value must be a finite number"

/-- Whether a name could not be found, as opposed to a value outside the domain. -/
def isLookup : ConversionError → Bool
  | unknownCategory _ => true
  | unknownUnit _ _ => true
  | _ => false

end ConversionError

end Reckoner
