/-
Printing JSON.

Quotes, backslashes and control characters of a text are escaped and nothing else is.
Numbers are written with the shortest digits that read back, plainly when the first digit
is between the fifth place after the point and the sixteenth before it; what is not finite
is written as `null`.
-/
import Reckoner.Decimal.Style
import Reckoner.Json.Value

namespace Reckoner

/-- How JSON writes numbers. -/
def JsonNumber.style : NumberStyle := ⟨.even, some (-5, 16), true, true⟩

/-- The text of a number. -/
def JsonNumber.print : JsonNumber → String
  | natural n => toString n
  | negative n => "-" ++ toString n
  | float v => if v.isFinite then style.text v else "null"

namespace Json

/-- The four hexadecimal digits of a small number, in lower case. -/
def hex4 (n : Nat) : List Char :=
  [n / 4096, n / 256, n / 16, n].map fun d => (Numeral.digitChar (d % 16)).toLower

/-- A character inside a quoted text. -/
def escape (c : Char) : List Char :=
  if c = '"' then ['\\', '"']
  else if c = '\\' then ['\\', '\\']
  else if c = '\n' then ['\\', 'n']
  else if c = '\r' then ['\\', 'r']
  else if c = '\t' then ['\\', 't']
  else if c.toNat = 8 then ['\\', 'b']
  else if c.toNat = 12 then ['\\', 'f']
  else if c.toNat < 32 then '\\' :: 'u' :: hex4 c.toNat
  else [c]

/-- A quoted text. -/
def quote (s : String) : String := String.ofList ('"' :: s.toList.flatMap escape ++ ['"'])

mutual

/-- The text of a value without blanks. -/
def print : Json → String
  | null => "null"
  | bool b => if b then "true" else "false"
  | number n => n.print
  | text s => quote s
  | array xs => "[" ++ ",".intercalate (printElements xs) ++ "]"
  | object ms => "\x7b" ++ ",".intercalate (printMembers ms) ++ "\x7d"

/-- The texts of several values. -/
def printElements : List Json → List String
  | [] => []
  | x :: xs => print x :: printElements xs

/-- The texts of several members. -/
def printMembers : List (String × Json) → List String
  | [] => []
  | (name, x) :: ms => (quote name ++ ":" ++ print x) :: printMembers ms

end

/-- The text of a flat object with a line for each member, indented by two spaces. -/
def printLines (members : List (String × Json)) : String :=
  let line (m : String × Json) := "  " ++ quote m.1 ++ ": " ++ m.2.print
  "\x7b\n" ++ ",\n".intercalate (members.map line) ++ "\n\x7d"

end Json

end Reckoner
