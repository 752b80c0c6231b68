/-
The lexemes of expressions.

A lexeme is the longest one that starts at its place; blanks between lexemes are skipped.
An exponent belongs to a number only if digits follow the letter, so `2e` is a number and
a word.
-/
import Reckoner.Decimal.Reading
import Reckoner.Decimal.Style
import Reckoner.Text.Blank

namespace Reckoner

/-- A lexeme of an expression. -/
inductive Token where
  | number (value : Double)
  | word (name : String)
  | plus
  | minus
  | star
  | slash
  | caret
  | opening
  | closing
  | comma
  deriving DecidableEq

/-- Why a text is no sequence of lexemes. -/
inductive TokenError where
  /-- Digits and points that are no number. -/
  | invalidNumber (text : String)
  /-- A character, at a place counted from zero, with which no lexeme starts. -/
  | unexpectedCharacter (c : Char) (place : Nat)
  deriving DecidableEq, Repr

/-- The text of the error. -/
def TokenError.message : TokenError → String
  | invalidNumber text => "invalid number '" ++ text ++ "'"
  | unexpectedCharacter c place =>
    "unexpected character '" ++ String.singleton c ++ "' at position " ++ toString place

namespace Token

/-- How an error message shows a number: in full, plainly from 0.0001 up to below 10^16. -/
def numberStyle : NumberStyle := ⟨.up, some (-4, 16), true, false⟩

/-- How an error message shows a lexeme. -/
def describe : Token → String
  | number v => "Number(" ++ numberStyle.text v ++ ")"
  | word name => "Ident(\"" ++ name ++ "\")"
  | plus => "Plus"
  | minus => "Minus"
  | star => "Star"
  | slash => "Slash"
  | caret => "Caret"
  | opening => "LParen"
  | closing => "RParen"
  | comma => "Comma"

/-! ### Character classes -/

/-- Whether a number consists of such characters up to its exponent. -/
def inNumber (c : Char) : Bool := c.isDigit || c == '.'

/-- Whether a word starts with a character. -/
def startsWord (c : Char) : Bool := c.isAlpha || c == '_'

/-- Whether a word goes on with a character. -/
def inWord (c : Char) : Bool := c.isAlphanum || c == '_'

/-- The lexeme that a single character makes. -/
def ofChar? : Char → Option Token
  | '+' => some plus
  | '-' => some minus
  | '*' => some star
  | '/' => some slash
  | '^' => some caret
  | '(' => some opening
  | ')' => some closing
  | ',' => some comma
  | _ => none

/-! ### Scanning -/

/-- A text split after the number at its start. -/
def spanNumber (cs : List Char) : List Char × List Char :=
  let (exponent, rest) := DecimalNumeral.spanExponent Char.isDigit (cs.dropWhile inNumber)
  (cs.takeWhile inNumber ++ exponent, rest)

/-- The lexeme at the start of what is left of a text of the given length, and what follows it;
what is left starts with the character `c`, which is not blank. -/
def next (length : Nat) (c : Char) (cs : List Char) : Except TokenError (Token × List Char) :=
  if inNumber c then
    let (text, rest) := spanNumber (c :: cs)
    match DecimalNumeral.read? text with
    | some n => .ok (number n.toDouble, rest)
    | none => .error (.invalidNumber (String.ofList text))
  else if startsWord c then
    .ok (word (String.ofList (c :: cs.takeWhile inWord)), cs.dropWhile inWord)
  else if c = '*' ∧ cs.head? = some '*' then .ok (caret, cs.tail)
  else
    match ofChar? c with
    | some t => .ok (t, cs)
    | none => .error (.unexpectedCharacter c (length - (cs.length + 1)))

/-- The lexemes of what is left of a text of the given length; the first argument bounds the
number of steps. -/
def scan (length : Nat) : Nat → List Char → Except TokenError (List Token)
  | _, [] => .ok []
  | 0, _ => .ok []
  | steps + 1, c :: cs =>
    if Text.isBlank c then scan length steps cs
    else do
      let (t, rest) ← next length c cs
      return t :: (← scan length steps rest)

/-- The lexemes of a text. -/
def ofText (text : String) : Except TokenError (List Token) :=
  let cs := text.toList
  scan cs.length cs.length cs

end Token

end Reckoner
