/-
Arithmetic expressions in one variable.

The functions that may be called are listed here and nothing is ever looked up elsewhere,
so an expression can do no more than compute a number.
-/
import Reckoner.Double.Bits

namespace Reckoner

/-! ### Functions -/

/-- A function that an expression may call. -/
inductive MathFunction where
  | sin
  | cos
  | tan
  | asin
  | acos
  | atan
  | exp
  | log
  | log10
  | sqrt
  | abs
  | floor
  | ceil
  | pow
  deriving DecidableEq, Repr

namespace MathFunction

/-- All functions. -/
def all : List MathFunction :=
  [sin, cos, tan, asin, acos, atan, exp, log, log10, sqrt, abs, floor, ceil, pow]

/-- The name by which a function is called. -/
def name : MathFunction → String
  | sin => "sin"
  | cos => "cos"
  | tan => "tan"
  | asin => "asin"
  | acos => "acos"
  | atan => "atan"
  | exp => "exp"
  | log => "log"
  | log10 => "log10"
  | sqrt => "sqrt"
  | abs => "abs"
  | floor => "floor"
  | ceil => "ceil"
  | pow => "pow"

/-- The function of a given name; letter case counts. -/
def ofName? (name : String) : Option MathFunction := all.find? (·.name == name)

/-- The fewest arguments a function takes. -/
def minArity : MathFunction → Nat
  | pow => 2
  | _ => 1

/-- The most arguments a function takes; a logarithm may be given its base. -/
def maxArity : MathFunction → Nat
  | log => 2
  | pow => 2
  | _ => 1

/-- Whether a function takes the given number of arguments. -/
def accepts (f : MathFunction) (count : Nat) : Bool := f.minArity ≤ count && count ≤ f.maxArity

/-- The value of a function of one argument. -/
def apply₁ : MathFunction → Double → Double
  | sin, a => a.sin
  | cos, a => a.cos
  | tan, a => a.tan
  | asin, a => a.asin
  | acos, a => a.acos
  | atan, a => a.atan
  | exp, a => a.exp
  | log, a => a.ln
  | log10, a => a.log10
  | sqrt, a => a.sqrt
  | abs, a => a.abs
  | floor, a => a.floor
  | ceil, a => a.ceil
  | pow, _ => .nan

/-- The value of a function of two arguments. -/
def apply₂ : MathFunction → Double → Double → Double
  | log, a, base => a.ln / base.ln
  | pow, a, b => a.pow b
  | _, _, _ => .nan

/-- The value of a function at a list of arguments; a number of them that the function does not
take gives no number. -/
def apply (f : MathFunction) : List Double → Double
  | [a] => f.apply₁ a
  | [a, b] => f.apply₂ a b
  | _ => .nan

end MathFunction

/-! ### Trees -/

/-- An operator between two operands. -/
inductive BinaryOp where
  | add
  | sub
  | mul
  | div
  | pow
  deriving DecidableEq, Repr

/-- The value of an operator at two numbers. -/
def BinaryOp.apply : BinaryOp → Double → Double → Double
  | add, a, b => a + b
  | sub, a, b => a - b
  | mul, a, b => a * b
  | div, a, b => a / b
  | pow, a, b => a.pow b

/-- The tree of an expression. -/
inductive Expression where
  | number (value : Double)
  /-- The variable `x`. -/
  | unknown
  | neg (operand : Expression)
  | binary (op : BinaryOp) (lhs rhs : Expression)
  | call (function : MathFunction) (args : List Expression)

namespace Expression

mutual

/-- Whether an expression mentions the variable. -/
def usesVariable : Expression → Bool
  | number _ => false
  | unknown => true
  | neg a => a.usesVariable
  | binary _ a b => a.usesVariable || b.usesVariable
  | call _ args => anyUsesVariable args

/-- Whether one of several expressions mentions the variable. -/
def anyUsesVariable : List Expression → Bool
  | [] => false
  | a :: rest => a.usesVariable || anyUsesVariable rest

end

mutual

/-- The value of an expression, given that of the variable; none if the variable is needed and has
no value. -/
def eval? (x : Option Double) : Expression → Option Double
  | number v => some v
  | unknown => x
  | neg a => (eval? x a).map Neg.neg
  | binary op a b => do return op.apply (← eval? x a) (← eval? x b)
  | call f args => (evalAll? x args).map f.apply

/-- The values of several expressions. -/
def evalAll? (x : Option Double) : List Expression → Option (List Double)
  | [] => some []
  | a :: rest => do return (← eval? x a) :: (← evalAll? x rest)

end

end Expression

end Reckoner
