/-
Why the body of a request is refused.

A body either is no JSON or has the wrong shape.  The wrong shape is told by what was found
and what was wanted.
-/
import Reckoner.Json.Printer
import Reckoner.Text.Quoted

namespace Reckoner

/-- What was found where something else was wanted. -/
inductive Found where
  | null
  | bool (b : Bool)
  | number (n : JsonNumber)
  | text (s : String)
  | array
  | object
  deriving DecidableEq

/-- What was found, in words. -/
def Found.describe : Found → String
  | null => "null"
  | bool b => "boolean `" ++ (if b then "true" else "false") ++ "`"
  | number (.float v) => "floating point `" ++ JsonNumber.style.text v ++ "`"
  | number n => "integer `" ++ n.print ++ "`"
  | text s => "string " ++ Text.quoted s
  | array => "sequence"
  | object => "map"

/-- Why a JSON text has the wrong shape. -/
inductive ShapeError where
  /-- A value is of another type than wanted. -/
  | invalidType (found : Found) (wanted : String)
  /-- An integer is out of the range wanted. -/
  | invalidValue (found : Found) (wanted : String)
  | missingField (name : String)
  | duplicateField (name : String)
  /-- An array has too few elements for the request of the given name and number of fields. -/
  | tooShort (length : Nat) (request : String) (fields : Nat)
  /-- A text that stands for a number is none. -/
  | notANumber (text : String)
  /-- A value is neither a number nor a text. -/
  | neitherNumberNorText
  deriving DecidableEq

/-- The text of the error. -/
def ShapeError.message : ShapeError → String
  | invalidType found wanted => "invalid type: " ++ found.describe ++ ", expected " ++ wanted
  | invalidValue found wanted => "invalid value: " ++ found.describe ++ ", expected " ++ wanted
  | missingField name => "missing field `" ++ name ++ "`"
  | duplicateField name => "duplicate field `" ++ name ++ "`"
  | tooShort length request fields =>
    "invalid length " ++ toString length ++ ", expected struct " ++ request ++ " with " ++
      toString fields ++ (if fields = 1 then " element" else " elements")
  | notANumber text => "could not convert string to float: '" ++ text ++ "'"
  | neitherNumberNorText => "data did not match any variant of untagged enum NumberOrText"

/-- Why the body of a request is refused. -/
inductive DecodeError where
  /-- The body is no JSON. -/
  | syntaxError
  | shape (e : ShapeError)
  deriving DecidableEq

end Reckoner
