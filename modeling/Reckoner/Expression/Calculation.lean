/-
Calculating with typed expressions.

A calculation has no variable and a finite result; what the keys of a calculator write for
the operators is accepted for them.
-/
import Reckoner.Expression.Parser

namespace Reckoner

/-- Why an expression has no result. -/
inductive CalculationError where
  | parse (e : SyntaxError)
  | unboundVariable
  | notANumber
  | infinite
  deriving DecidableEq

/-- The text of the error. -/
def CalculationError.message : CalculationError → String
  | parse e => "Failed to parse expression: " ++ e.message
  | unboundVariable => "Variable 'x' is not bound"
  | notANumber => "Result is NaN (Not a Number)"
  | infinite => "Result is infinite"

namespace Calculation

/-- The operator for which a key's glyph stands. -/
def operatorOfGlyph (c : Char) : Char :=
  if c = '×' then '*' else if c = '÷' then '/' else if c = '−' then '-' else c

/-- A text without blanks at its ends and without glyphs. -/
def normalize (text : String) : String :=
  String.ofList ((Text.trimChars text.toList).map operatorOfGlyph)

/-- A number as a result, if it is finite. -/
def finite (v : Double) : Except CalculationError Double :=
  match v with
  | .nan => .error .notANumber
  | .infinite _ => .error .infinite
  | .finite _ _ => .ok v

/-- The result of an expression without the variable. -/
def evaluate (text : String) : Except CalculationError Double :=
  match Expression.parse (normalize text) with
  | .error e => .error (.parse e)
  | .ok e =>
    match e.eval? none with
    | none => .error .unboundVariable
    | some v => finite v

end Calculation

end Reckoner
