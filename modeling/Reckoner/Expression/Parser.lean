/-
The grammar of expressions.

    sum     := product (('+' | '-') product)*
    product := signed (('*' | '/') signed)*
    signed  := ('+' | '-') signed | power
    power   := primary ('^' signed)?
    primary := number | 'x' | 'pi' | 'e' | function '(' arguments ')' | '(' sum ')'

Two limits keep trees small: `signed` may be nested in itself 128 times, and there may be
1024 of the operators that chain without nesting.  The readers below `signed` take the
reader for the next level of `signed` as an argument, so the depth is the only recursion
and the rest are loops over the lexemes.
-/
import Reckoner.Expression.Basic
import Reckoner.Expression.Token

namespace Reckoner

/-- Why a text is no expression. -/
inductive SyntaxError where
  | token (e : TokenError)
  /-- There are no lexemes. -/
  | empty
  | tooDeep
  | tooLong
  | missingParenthesis
  | unexpectedToken (t : Token)
  | unexpectedEnd
  | unknownWord (name : String)
  /-- A function's name is not followed by a parenthesis. -/
  | notCalled (f : MathFunction)
  /-- The arguments of a call do not end. -/
  | unclosedCall (f : MathFunction)
  | wrongArity (f : MathFunction) (count : Nat)
  /-- A lexeme is left after the expression. -/
  | trailingToken (t : Token)
  deriving DecidableEq

/-- The numbers of arguments a function takes, in words. -/
def MathFunction.arityText (f : MathFunction) : String :=
  if f.minArity = f.maxArity then toString f.minArity
  else toString f.minArity ++ " to " ++ toString f.maxArity

/-- The text of the error. -/
def SyntaxError.message : SyntaxError → String
  | token e => e.message
  | empty => "empty expression"
  | tooDeep => "expression is nested too deeply"
  | tooLong => "expression is too long"
  | missingParenthesis => "missing ')'"
  | unexpectedToken t => "unexpected token " ++ t.describe
  | unexpectedEnd => "unexpected end of expression"
  | unknownWord name => "unknown identifier '" ++ name ++ "'"
  | notCalled f => "function '" ++ f.name ++ "' must be called with '('"
  | unclosedCall f => "expected ',' or ')' in call to '" ++ f.name ++ "'"
  | wrongArity f count =>
    "function '" ++ f.name ++ "' takes " ++ f.arityText ++ " argument(s), got " ++ toString count
  | trailingToken t => "unexpected trailing token " ++ t.describe

namespace Expression

/-- How deep `signed` may be nested. -/
def maxDepth : Nat := 128

/-- How many operators may chain. -/
def maxOperators : Nat := 1024

/-! ### Readers -/

/-- What is left to read, how many chaining operators have been read, and whether the variable
has. -/
structure Input where
  tokens : List Token
  operators : Nat
  usesVariable : Bool
  deriving DecidableEq

/-- A reader takes an expression from the front of the input. -/
abbrev Reader := Input → Except SyntaxError (Expression × Input)

/-- An operator of a sum. -/
def additive? : Token → Option BinaryOp
  | .plus => some .add
  | .minus => some .sub
  | _ => none

/-- An operator of a product. -/
def multiplicative? : Token → Option BinaryOp
  | .star => some .mul
  | .slash => some .div
  | _ => none

/-- Counts one more chaining operator. -/
def countOperator (input : Input) : Except SyntaxError Input :=
  if input.operators < maxOperators then .ok { input with operators := input.operators + 1 }
  else .error .tooLong

/-- The rest of a chain, given the operand to its left; the first argument bounds the number of
steps, and one more step than there may be operators is enough. -/
def chainRest (op? : Token → Option BinaryOp) (operand : Reader) : Nat → Expression → Reader
  | 0, _, _ => .error .tooLong
  | steps + 1, lhs, input =>
    match input.tokens with
    | [] => .ok (lhs, input)
    | t :: rest =>
      match op? t with
      | none => .ok (lhs, input)
      | some op => do
        let (rhs, input) ← operand { input with tokens := rest }
        let input ← countOperator input
        chainRest op? operand steps (.binary op lhs rhs) input

/-- Operands joined by operators that group to the left. -/
def chain (op? : Token → Option BinaryOp) (operand : Reader) : Reader := fun input => do
  let (lhs, input) ← operand input
  chainRest op? operand (maxOperators + 1) lhs input

/-- A product of signed operands. -/
def product (signed : Reader) : Reader := chain multiplicative? signed

/-- A sum of products. -/
def sum (signed : Reader) : Reader := chain additive? (product signed)

/-- The arguments of a call up to the closing parenthesis, in reverse order; the first argument
bounds the number of steps. -/
def argumentsRest (f : MathFunction) (signed : Reader) :
    Nat → List Expression → Input → Except SyntaxError (List Expression × Input)
  | 0, _, _ => .error (.unclosedCall f)
  | steps + 1, before, input => do
    let (arg, input) ← sum signed input
    match input.tokens with
    | .comma :: rest => argumentsRest f signed steps (arg :: before) { input with tokens := rest }
    | .closing :: rest => return ((arg :: before).reverse, { input with tokens := rest })
    | _ => throw (.unclosedCall f)

/-- A call of a function whose name has been read. -/
def callOf (f : MathFunction) (signed : Reader) : Reader := fun input =>
  match input.tokens with
  | .opening :: .closing :: rest => finish [] { input with tokens := rest }
  | .opening :: rest => do
    let (args, input) ← argumentsRest f signed (rest.length + 1) [] { input with tokens := rest }
    finish args input
  | _ => .error (.notCalled f)
where
  /-- Checks the number of arguments. -/
  finish (args : List Expression) : Reader := fun input =>
    if f.accepts args.length then .ok (.call f args, input)
    else .error (.wrongArity f args.length)

/-- What a word stands for: the variable, a constant or a call. -/
def word (name : String) (signed : Reader) : Reader := fun input =>
  if name = "x" then .ok (.unknown, { input with usesVariable := true })
  else if name = "pi" then .ok (.number Double.pi, input)
  else if name = "e" then .ok (.number Double.e, input)
  else
    match MathFunction.ofName? name with
    | some f => callOf f signed input
    | none => .error (.unknownWord name)

/-- A number, a word or an expression in parentheses. -/
def primary (signed : Reader) : Reader := fun input =>
  match input.tokens with
  | [] => .error .unexpectedEnd
  | .number v :: rest => .ok (.number v, { input with tokens := rest })
  | .word name :: rest => word name signed { input with tokens := rest }
  | .opening :: rest => do
    let (inner, input) ← sum signed { input with tokens := rest }
    match input.tokens with
    | .closing :: rest => return (inner, { input with tokens := rest })
    | _ => throw .missingParenthesis
  | t :: _ => .error (.unexpectedToken t)

/-- A primary expression and its exponent, which may be signed. -/
def power (signed : Reader) : Reader := fun input => do
  let (base, input) ← primary signed input
  match input.tokens with
  | .caret :: rest =>
    let (exponent, input) ← signed { input with tokens := rest }
    return (.binary .pow base exponent, input)
  | _ => return (base, input)

/-- A power with any number of signs before it, at most `depth` levels deep; a plus sign leaves no
trace. -/
def signed : (depth : Nat) → Reader
  | 0, _ => .error .tooDeep
  | depth + 1, input =>
    match input.tokens with
    | .minus :: rest => do
      let (inner, input) ← signed depth { input with tokens := rest }
      return (.neg inner, input)
    | .plus :: rest => signed depth { input with tokens := rest }
    | _ => power (signed depth) input

/-! ### Whole texts -/

/-- A tree that has been read, and whether the variable was met on the way. -/
structure Parsed where
  root : Expression
  usesVariable : Bool

/-- What a sequence of lexemes makes. -/
def parsedOfTokens (tokens : List Token) : Except SyntaxError Parsed :=
  if tokens.isEmpty then .error .empty
  else do
    let (e, input) ← sum (signed maxDepth) ⟨tokens, 0, false⟩
    match input.tokens with
    | [] => return ⟨e, input.usesVariable⟩
    | t :: _ => throw (.trailingToken t)

/-- What a text makes. -/
def parsed (text : String) : Except SyntaxError Parsed :=
  match Token.ofText text with
  | .ok tokens => parsedOfTokens tokens
  | .error e => .error (.token e)

/-- The expression that a sequence of lexemes makes. -/
def ofTokens (tokens : List Token) : Except SyntaxError Expression :=
  (parsedOfTokens tokens).map Parsed.root

/-- The expression that a text makes. -/
def parse (text : String) : Except SyntaxError Expression :=
  match Token.ofText text with
  | .ok tokens => ofTokens tokens
  | .error e => .error (.token e)

end Expression

end Reckoner
