/-
Reading JSON.

Every reader takes its part from the front of a text and returns what follows.  A strict
reader refuses numbers out of range and halves of surrogate pairs; one that only skips a
value lets them pass, as nothing depends on what they stand for.  How deep arrays and objects
may be nested is an argument and the only recursion; the rest are loops.
-/
import Reckoner.Json.Number

namespace Reckoner.Json

/-- A text without the blanks at its start. -/
def skipBlanks (cs : List Char) : List Char :=
  cs.dropWhile fun c => c == ' ' || c == '\n' || c == '\t' || c == '\r'

/-- What follows a given word at the start of a text. -/
def after? (word : String) (cs : List Char) : Option (List Char) :=
  if word.toList.isPrefixOf cs then some (cs.drop word.length) else none

/-! ### Texts -/

/-- The number that four hexadecimal digits denote. -/
def readHex4? (a b c d : Char) : Option Nat := Numeral.read? 16 [a, b, c, d]

/-- The character that stands for a half of a surrogate pair where it is let pass. -/
def replacement : Char := '\uFFFD'

/-- The character for which a letter after a backslash stands. -/
def unescape? (c : Char) : Option Char :=
  if c = '"' ∨ c = '\\' ∨ c = '/' then some c
  else if c = 'b' then some (Char.ofNat 8)
  else if c = 'f' then some (Char.ofNat 12)
  else if c = 'n' then some '\n'
  else if c = 'r' then some '\r'
  else if c = 't' then some '\t'
  else none

/-- Whether a number is the first half of a surrogate pair. -/
def isHighSurrogate (n : Nat) : Bool := 0xD800 ≤ n && n < 0xDC00

/-- Whether a number is the second half of a surrogate pair. -/
def isLowSurrogate (n : Nat) : Bool := 0xDC00 ≤ n && n < 0xE000

/-- The character that a surrogate pair encodes. -/
def pairChar (high low : Nat) : Char :=
  Char.ofNat (0x10000 + (high - 0xD800) * 0x400 + (low - 0xDC00))

/-- The character of a surrogate pair, given its first half, if the second half is at the start of
a text; and what follows it. -/
def readLowSurrogate? (high : Nat) : List Char → Option (Char × List Char)
  | '\\' :: 'u' :: a :: b :: c :: d :: rest => do
    let low ← readHex4? a b c d
    if isHighSurrogate high && isLowSurrogate low then some (pairChar high low, rest) else none
  | _ => none

/-- The character for which an escape stands that follows its backslash, and what follows it. -/
def readEscape? (strict : Bool) : List Char → Option (Char × List Char)
  | [] => none
  | 'u' :: a :: b :: c :: d :: rest => do
    let n ← readHex4? a b c d
    if isHighSurrogate n || isLowSurrogate n then
      if strict then readLowSurrogate? n rest else some (replacement, rest)
    else some (Char.ofNat n, rest)
  | letter :: rest => (unescape? letter).map (·, rest)

/-- A text up to its closing quote, and what follows that; the first argument bounds the number of
steps. -/
def readQuoted? (strict : Bool) : Nat → List Char → Option (List Char × List Char)
  | _, [] => none
  | 0, _ => none
  | steps + 1, c :: rest =>
    if c = '"' then some ([], rest)
    else if c = '\\' then do
      let (c, rest) ← readEscape? strict rest
      let (cs, rest) ← readQuoted? strict steps rest
      return (c :: cs, rest)
    else if c.toNat < 32 then none
    else do
      let (cs, rest) ← readQuoted? strict steps rest
      return (c :: cs, rest)

/-- A quoted text, and what follows it. -/
def readText? (strict : Bool) : List Char → Option (String × List Char)
  | '"' :: rest =>
    (readQuoted? strict rest.length rest).map fun (cs, rest) => (String.ofList cs, rest)
  | _ => none

/-! ### Numbers -/

/-- A number, and what follows it. -/
def readNumber? (strict : Bool) (cs : List Char) : Option (JsonNumber × List Char) := do
  let (numeral, rest) ← JsonNumeral.read? cs
  match numeral.value? with
  | some n => some (n, rest)
  | none => if strict then none else some (.float .nan, rest)

/-! ### Values -/

/-- A value that is neither array nor object, and what follows it. -/
def readScalar? (strict : Bool) (cs : List Char) : Option (Json × List Char) :=
  match cs with
  | 'n' :: _ => (after? "null" cs).map (null, ·)
  | 't' :: _ => (after? "true" cs).map (bool true, ·)
  | 'f' :: _ => (after? "false" cs).map (bool false, ·)
  | '"' :: _ => (readText? strict cs).map fun (s, rest) => (text s, rest)
  | _ => (readNumber? strict cs).map fun (n, rest) => (number n, rest)

/-- A reader of values. -/
abbrev Reader := List Char → Option (Json × List Char)

/-- The elements of an array that is not empty, up to its closing bracket; the first argument
bounds the number of steps. -/
def readElements? (value : Reader) : Nat → List Char → Option (List Json × List Char)
  | 0, _ => none
  | steps + 1, cs => do
    let (x, rest) ← value (skipBlanks cs)
    match skipBlanks rest with
    | ',' :: rest =>
      let (xs, rest) ← readElements? value steps rest
      return (x :: xs, rest)
    | ']' :: rest => return ([x], rest)
    | _ => none

/-- The name of a member and the colon after it. -/
def readName? (strict : Bool) (cs : List Char) : Option (String × List Char) := do
  let (name, rest) ← readText? strict (skipBlanks cs)
  match skipBlanks rest with
  | ':' :: rest => return (name, rest)
  | _ => none

/-- The members of an object that is not empty, up to its closing brace; the first argument bounds
the number of steps. -/
def readMembers? (strict : Bool) (value : Reader) :
    Nat → List Char → Option (List (String × Json) × List Char)
  | 0, _ => none
  | steps + 1, cs => do
    let (name, rest) ← readName? strict cs
    let (x, rest) ← value (skipBlanks rest)
    match skipBlanks rest with
    | ',' :: rest =>
      let (ms, rest) ← readMembers? strict value steps rest
      return ((name, x) :: ms, rest)
    | '\x7d' :: rest => return ([(name, x)], rest)
    | _ => none

/-- A value with arrays and objects nested at most `depth` deep, and what follows it; `steps`
bounds the number of elements or members of each. -/
def readValue? (strict : Bool) (steps : Nat) : (depth : Nat) → Reader
  | 0, cs => readScalar? strict cs
  | depth + 1, cs =>
    match cs with
    | '[' :: rest =>
      match skipBlanks rest with
      | ']' :: rest => some (array [], rest)
      | _ => (readElements? (readValue? strict steps depth) steps rest).map fun (xs, rest) =>
        (array xs, rest)
    | '\x7b' :: rest =>
      match skipBlanks rest with
      | '\x7d' :: rest => some (object [], rest)
      | _ =>
        (readMembers? strict (readValue? strict steps depth) steps rest).map fun (ms, rest) =>
          (object ms, rest)
    | _ => readScalar? strict cs

/-- A value at the start of a text, after blanks, and what follows it. -/
def readFirst? (strict : Bool) (depth : Nat) : Reader := fun cs =>
  readValue? strict cs.length depth (skipBlanks cs)

/-- How deep the arrays and objects of a document may be nested. -/
def maxDepth : Nat := 127

/-- A document: one value with nothing but blanks around it. -/
def read? (source : String) : Option Json :=
  match readFirst? true maxDepth source.toList with
  | some (x, rest) => if (skipBlanks rest).isEmpty then some x else none
  | none => none

/-- What follows a value of any depth, whose texts and numbers need not stand for anything. -/
def skipValue? (cs : List Char) : Option (List Char) :=
  (readFirst? false cs.length cs).map Prod.snd

end Reckoner.Json
