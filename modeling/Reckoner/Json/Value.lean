/-
JSON values.

A number keeps the form in which it was read: a natural number or a negative integer of 64
bits, or else a double-precision number.  An object keeps its members in order, and of two
members with one name the last counts.
-/
import Reckoner.Double.Basic

namespace Reckoner

/-- A JSON number. -/
inductive JsonNumber where
  /-- A natural number below `2 ^ 64`. -/
  | natural (n : Nat)
  /-- The negative of a natural number, from `1` to `2 ^ 63`. -/
  | negative (n : Nat)
  | float (v : Double)
  deriving DecidableEq

/-- The double-precision number nearest to a JSON number. -/
def JsonNumber.toDouble : JsonNumber → Double
  | natural n => .ofNat n
  | negative n => -.ofNat n
  | float v => v

/-- A JSON value. -/
inductive Json where
  | null
  | bool (b : Bool)
  | number (n : JsonNumber)
  | text (s : String)
  | array (elements : List Json)
  | object (members : List (String × Json))
  deriving Inhabited

namespace Json

/-- The value of the last member with a name. -/
def lastMember? (members : List (String × Json)) (name : String) : Option Json :=
  (members.reverse.find? (·.1 == name)).map Prod.snd

end Json

end Reckoner
