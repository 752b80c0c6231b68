/-
Words, and the numerals in which they are written.

A word has 8, 16, 32 or 64 bits and is kept in 64; what does not fit the selected size is
masked away.  It is written in base 2, 8, 10 or 16.  Reading is modulo 2 ^ 64 for digits
of any number, and a minus sign negates.
-/
import Reckoner.Numeral
import Reckoner.Text.Blank
import Reckoner.Text.Fold

namespace Reckoner

/-! ### Bases -/

/-- A base in which words are written. -/
inductive Radix where
  | bin
  | oct
  | dec
  | hex
  deriving DecidableEq, Repr, Inhabited

/-- An operation on words. -/
inductive WordOp where
  | add
  | sub
  | mul
  | div
  | and
  | or
  | xor
  | shl
  | shr
  | not
  deriving DecidableEq, Repr

/-- Why an operation on words has no result. -/
inductive WordError where
  | divisionByZero
  | unknownOperator (text : String)
  /-- An operation between two words was given one. -/
  | missingOperand (op : WordOp)
  | unknownRadix (text : String)
  | unsupportedWordSize (bits : Nat)
  /-- A text is no numeral in the base. -/
  | invalidDigits (radix : Radix) (text : String)
  deriving DecidableEq, Repr

namespace Radix

/-- All bases. -/
def all : List Radix := [bin, oct, dec, hex]

/-- The name of a base. -/
def label : Radix → String
  | bin => "BIN"
  | oct => "OCT"
  | dec => "DEC"
  | hex => "HEX"

/-- The number of digits of a base. -/
def base : Radix → Nat
  | bin => 2
  | oct => 8
  | dec => 10
  | hex => 16

/-- The base that a text names, in any letter case. -/
def ofName (text : String) : Except WordError Radix :=
  match all.find? fun r => Text.equalIgnoringCase r.label (Text.trim text) with
  | some r => .ok r
  | none => .error (.unknownRadix text)

/-- Whether a character is a digit of the base. -/
def accepts (r : Radix) (c : Char) : Bool := (Numeral.digitIn? r.base c).isSome

/-- The word that digits denote, nothing if one of the characters is no digit. -/
def readDigits? (r : Radix) (cs : List Char) : Option UInt64 :=
  cs.foldlM (fun n c => (Numeral.digitIn? r.base c).map fun d => n * r.base.toUInt64 + d.toUInt64) 0

/-- The word that a text denotes, blanks at its ends aside; a text without any characters denotes
zero, but a sign needs digits. -/
def read (r : Radix) (text : String) : Except WordError UInt64 :=
  let result := match Text.trimChars text.toList with
    | [] => some 0
    | '-' :: c :: cs => (r.readDigits? (c :: cs)).map Neg.neg
    | '+' :: c :: cs => r.readDigits? (c :: cs)
    | cs => r.readDigits? cs
  match result with
  | some n => .ok n
  | none => .error (.invalidDigits r text)

/-- The numeral of a word as characters. -/
def writeChars (r : Radix) (n : UInt64) : List Char := Numeral.write r.base n.toNat

/-- The numeral of a word. -/
def write (r : Radix) (n : UInt64) : String := String.ofList (r.writeChars n)

end Radix

/-! ### Sizes -/

/-- The size of a word. -/
inductive WordSize where
  | bits8
  | bits16
  | bits32
  | bits64
  deriving DecidableEq, Repr

namespace WordSize

/-- All sizes. -/
def all : List WordSize := [bits8, bits16, bits32, bits64]

/-- The number of bits. -/
def bits : WordSize → Nat
  | bits8 => 8
  | bits16 => 16
  | bits32 => 32
  | bits64 => 64

/-- The size with a given number of bits. -/
def ofBits (bits : Nat) : Except WordError WordSize :=
  match all.find? fun w => w.bits == bits with
  | some w => .ok w
  | none => .error (.unsupportedWordSize bits)

/-- The word of this size with all bits set. -/
def mask (w : WordSize) : UInt64 := if w.bits < 64 then (1 <<< w.bits.toUInt64) - 1 else -1

end WordSize

/-! ### Operations -/

namespace WordOp

/-- All operations. -/
def all : List WordOp := [add, sub, mul, div, and, or, xor, shl, shr, not]

/-- The symbol of an operation. -/
def symbol : WordOp → String
  | add => "+"
  | sub => "-"
  | mul => "*"
  | div => "/"
  | and => "AND"
  | or => "OR"
  | xor => "XOR"
  | shl => "SHL"
  | shr => "SHR"
  | not => "NOT"

/-- Further symbols by which operations are known. -/
def aliases : List (String × WordOp) :=
  [("//", div), ("<<", shl), (">>", shr), ("&", and), ("|", or)]

/-- Whether an operation takes a single word. -/
def isUnary (op : WordOp) : Bool := op == not

/-- The operation that a text names, symbols that are words in any letter case. -/
def ofName (text : String) : Except WordError WordOp :=
  let name := Text.trim text
  match (aliases.lookup name) <|> (all.find? fun op => Text.equalIgnoringCase op.symbol name) with
  | some op => .ok op
  | none => .error (.unknownOperator name)

/-- The result of an operation on words of a size; the second one is ignored by `not`, and a shift
beyond the size leaves nothing. -/
def apply (op : WordOp) (w : WordSize) (a b : UInt64) : Except WordError UInt64 :=
  let a := a &&& w.mask
  let b := b &&& w.mask
  let masked (n : UInt64) : Except WordError UInt64 := .ok (n &&& w.mask)
  match op with
  | add => masked (a + b)
  | sub => masked (a - b)
  | mul => masked (a * b)
  | div => if b = 0 then .error .divisionByZero else masked (a / b)
  | and => masked (a &&& b)
  | or => masked (a ||| b)
  | xor => masked (a ^^^ b)
  | shl => masked (if b < 64 then a <<< b else 0)
  | shr => masked (if b < 64 then a >>> b else 0)
  | not => masked (~~~a)

end WordOp

/-- The text of the error. -/
def WordError.message : WordError → String
  | divisionByZero => "Division by zero"
  | unknownOperator text => "Unknown operator: " ++ text
  | missingOperand op => "Operator " ++ op.symbol ++ " needs a right-hand operand"
  | unknownRadix text => "Unknown radix: " ++ text
  | unsupportedWordSize bits =>
    "Unsupported word size: " ++ toString bits ++ " (expected 8, 16, 32 or 64)"
  | invalidDigits radix text => "Invalid digits for " ++ radix.label ++ ": " ++ text

/-- The numeral of an operation's result, given the operation and its operands as texts. -/
def evaluateWords (lhs op : String) (rhs : Option String) (r : Radix) (w : WordSize) :
    Except WordError String := do
  let op ← WordOp.ofName op
  let a ← r.read lhs
  let b ←
    if op.isUnary then pure 0
    else match rhs with
      | some text => r.read text
      | none => throw (.missingOperand op)
  return r.write (← op.apply w a b)

end Reckoner
