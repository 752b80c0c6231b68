/-
A keypad calculator for words.

Digits are collected as text, of any length, until another key is pressed.  A key for an
operation folds the operation pending before it and keeps the result.  A division by zero
shows an error, which the next digit replaces.
-/
import Reckoner.Programmer.Word

namespace Reckoner

/-- What the keypad shows. -/
inductive Entry where
  /-- The last operation had no result. -/
  | failed
  /-- The digits of a number. -/
  | digits (cs : List Char)
  deriving DecidableEq

/-- The shown text. -/
def Entry.text : Entry → String
  | failed => "Error"
  | digits cs => String.ofList cs

/-- The state of the calculator. -/
structure Keypad where
  /-- What is shown. -/
  entry : Entry
  /-- The base in which numbers are shown and typed. -/
  radix : Radix
  /-- The size of words. -/
  wordSize : WordSize
  /-- An operation with its first word, still waiting for the second. -/
  pending : Option (UInt64 × WordOp)
  deriving DecidableEq

/-- A key of the keypad. -/
inductive Key where
  | digit (c : Char)
  | operator (op : WordOp)
  | equals
  | complement
  | clear
  | radix (r : Radix)
  | wordSize (bits : Nat)
  deriving DecidableEq

/-- What pressing a key tells. -/
inductive Reply where
  /-- The key was obeyed. -/
  | done
  /-- The key is no digit of the base. -/
  | ignored
  | failed (e : WordError)
  deriving DecidableEq

namespace Keypad

/-- The calculator as it is switched on. -/
def start : Keypad := ⟨.digits ['0'], .dec, .bits32, none⟩

/-- The number that is shown, whatever the word size; an error counts as zero. -/
def shown (k : Keypad) : UInt64 :=
  match k.entry with
  | .failed => 0
  | .digits cs => (k.radix.readDigits? cs).getD 0

/-- The number that is shown, as a word of the selected size. -/
def value (k : Keypad) : UInt64 := k.shown &&& k.wordSize.mask

/-- Shows a number as a word of the selected size. -/
def display (k : Keypad) (n : UInt64) : Keypad :=
  { k with entry := .digits (k.radix.writeChars (n &&& k.wordSize.mask)) }

/-- Shows an error, and forgets the pending operation. -/
def fail (k : Keypad) : Keypad := { k with entry := .failed, pending := none }

/-- Adds a digit, or starts a new number in place of a zero or an error. -/
def pressDigit (k : Keypad) (c : Char) : Keypad × Reply :=
  let c := c.toUpper
  if k.radix.accepts c then
    let cs := match k.entry with
      | .failed => [c]
      | .digits cs => if cs = ['0'] then [c] else cs ++ [c]
    ({ k with entry := .digits cs }, .done)
  else (k, .ignored)

/-- Complements the shown word, and forgets the pending operation. -/
def pressComplement (k : Keypad) : Keypad :=
  { k.display (~~~k.value) with pending := none }

/-- Makes an operation pending, on the result of the one before it. -/
def pressOperator (k : Keypad) (op : WordOp) : Keypad × Reply :=
  if op.isUnary then (k.pressComplement, .done)
  else
    let first : Except WordError UInt64 := match k.pending with
      | none => .ok k.value
      | some (a, before) => before.apply k.wordSize a k.value
    match first with
    | .ok a => ({ k with entry := .digits ['0'], pending := some (a, op) }, .done)
    | .error e => (k.fail, .failed e)

/-- Completes the pending operation, if there is one. -/
def pressEquals (k : Keypad) : Keypad × Reply :=
  match k.pending with
  | none => (k, .done)
  | some (a, op) =>
    match op.apply k.wordSize a k.value with
    | .ok n => ({ k.display n with pending := none }, .done)
    | .error e => (k.fail, .failed e)

/-- Shows zero, and forgets the pending operation. -/
def pressClear (k : Keypad) : Keypad := { k with entry := .digits ['0'], pending := none }

/-- Shows the same number in another base. -/
def pressRadix (k : Keypad) (r : Radix) : Keypad :=
  { k with radix := r, entry := .digits (r.writeChars k.shown) }

/-- Selects another word size, and shows what is left of the number in it. -/
def pressWordSize (k : Keypad) (bits : Nat) : Keypad × Reply :=
  match WordSize.ofBits bits with
  | .ok w => ({ k with wordSize := w }.display k.shown, .done)
  | .error e => (k, .failed e)

/-- What a key does. -/
def press (k : Keypad) : Key → Keypad × Reply
  | .digit c => k.pressDigit c
  | .operator op => k.pressOperator op
  | .equals => k.pressEquals
  | .complement => (k.pressComplement, .done)
  | .clear => (k.pressClear, .done)
  | .radix r => (k.pressRadix r, .done)
  | .wordSize bits => k.pressWordSize bits

/-- The state after a sequence of keys, and the reply to each. -/
def run (k : Keypad) : List Key → Keypad × List Reply
  | [] => (k, [])
  | key :: keys =>
    let (next, reply) := k.press key
    let (last, replies) := next.run keys
    (last, reply :: replies)

end Keypad

end Reckoner
