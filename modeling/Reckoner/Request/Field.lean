/-
Fields of requests.

Each kind of field has a type of values and a reader, which takes the value from the front
of a JSON text.  A value is judged as soon as it can be: one of the wrong type is refused
before anything after it is looked at.
-/
import Reckoner.Json.Reader
import Reckoner.Request.Error
import Reckoner.Text.Blank

-- Powers are the built-in ones, whatever other instances are in scope.
attribute [local instance (high)] instPowNat

namespace Reckoner

/-- A kind of field. -/
inductive FieldKind where
  | text
  /-- A text or `null`. -/
  | optionalText
  /-- A number, or a text that stands for one. -/
  | number
  /-- A natural number of 64 bits. -/
  | count
  /-- A natural number of 32 bits. -/
  | smallCount
  deriving DecidableEq

/-- The values of a kind of field. -/
abbrev FieldKind.Value : FieldKind → Type
  | text => String
  | optionalText => Option String
  | number => Double
  | count => Nat
  | smallCount => Nat

namespace Request

/-- The outcome of reading something from the front of a text. -/
abbrev Outcome (α : Type) := Except DecodeError (α × List Char)

/-- What was read, or else the error that the text is no JSON. -/
def orSyntax {α : Type} : Option (α × List Char) → Outcome α
  | some r => .ok r
  | none => .error .syntaxError

/-- Refuses a value of the wrong type.  Of an array or object nothing but its kind is looked at. -/
def refuse {α : Type} (wanted : String) (cs : List Char) : Outcome α :=
  match cs with
  | '[' :: _ => .error (.shape (.invalidType .array wanted))
  | '\x7b' :: _ => .error (.shape (.invalidType .object wanted))
  | _ =>
    match Json.readScalar? true cs with
    | some (.null, _) => .error (.shape (.invalidType .null wanted))
    | some (.bool b, _) => .error (.shape (.invalidType (.bool b) wanted))
    | some (.number n, _) => .error (.shape (.invalidType (.number n) wanted))
    | some (.text s, _) => .error (.shape (.invalidType (.text s) wanted))
    | _ => .error .syntaxError

/-- Reads a text. -/
def readText (cs : List Char) : Outcome String :=
  match cs with
  | '"' :: _ => orSyntax (Json.readText? true cs)
  | _ => refuse "a string" cs

/-- Reads a text or `null`. -/
def readOptionalText (cs : List Char) : Outcome (Option String) :=
  match cs with
  | 'n' :: _ => orSyntax ((Json.after? "null" cs).map (none, ·))
  | _ => (readText cs).map fun (s, rest) => (some s, rest)

/-- The number for which a value stands. -/
def numberOf : Json → Except DecodeError Double
  | .number n => .ok n.toDouble
  | .text s =>
    match Double.ofText? (Text.trimChars s.toList) with
    | some v => .ok v
    | none => .error (.shape (.notANumber s))
  | _ => .error (.shape .neitherNumberNorText)

/-- Reads a number or a text that stands for one, after reading the value as a whole. -/
def readNumber (depth : Nat) (cs : List Char) : Outcome Double :=
  match Json.readFirst? true depth cs with
  | some (value, rest) => (numberOf value).map (·, rest)
  | none => .error .syntaxError

/-- Reads a natural number below a bound. -/
def readCount (wanted : String) (bound : Nat) (cs : List Char) : Outcome Nat :=
  match cs with
  | c :: _ =>
    if c.isDigit || c == '-' then
      match Json.readNumber? true cs with
      | some (.natural n, rest) =>
        if n < bound then .ok (n, rest)
        else .error (.shape (.invalidValue (.number (.natural n)) wanted))
      | some (.negative n, _) => .error (.shape (.invalidValue (.number (.negative n)) wanted))
      | some (.float v, _) => .error (.shape (.invalidType (.number (.float v)) wanted))
      | none => .error .syntaxError
    else refuse wanted cs
  | [] => .error .syntaxError

/-- Reads a value of a kind; `depth` is how deep arrays and objects in it may be nested. -/
def readKind (depth : Nat) : (kind : FieldKind) → List Char → Outcome kind.Value
  | .text, cs => readText cs
  | .optionalText, cs => readOptionalText cs
  | .number, cs => readNumber depth cs
  | .count, cs => readCount "usize" (2 ^ (64 : Nat)) cs
  | .smallCount, cs => readCount "u32" (2 ^ (32 : Nat)) cs

end Request

/-- A field of a request. -/
structure Field where
  name : String
  kind : FieldKind
  /-- The value of a field that is left out; none if it has to be there. -/
  fallback : Option kind.Value

/-- The value of a field that an object does not have; an optional text may always be left out. -/
def Field.ifAbsent? (f : Field) : Option f.kind.Value :=
  match f with
  | ⟨_, .optionalText, none⟩ => some none
  | ⟨_, _, fallback⟩ => fallback

end Reckoner
