/-
Decoding requests.

The body of a request is a JSON object with the fields as members, or an array with the fields as
elements in their order.  It is read once from front to back, and the first problem found
decides; members that are no fields are skipped.
-/
import Reckoner.Request.Field

namespace Reckoner.Request

/-- The values of a list of fields. -/
abbrev Values : List Field → Type
  | [] => Unit
  | f :: fs => f.kind.Value × Values fs

/-- The values of those fields that have been read. -/
abbrev Slots : List Field → Type
  | [] => Unit
  | f :: fs => Option f.kind.Value × Slots fs

/-- No field has been read. -/
def noSlots : (fs : List Field) → Slots fs
  | [] => ()
  | _ :: fs => (none, noSlots fs)

/-! ### Objects -/

/-- Reads a value behind the colon of a member. -/
def readAfterColon {α : Type} (read : List Char → Outcome α) (cs : List Char) : Outcome α :=
  match Json.skipBlanks cs with
  | ':' :: rest => read (Json.skipBlanks rest)
  | _ => .error .syntaxError

/-- Reads the member of a given name into its slot; the text starts after the name. -/
def readMember (depth : Nat) (name : String) : (fs : List Field) → Slots fs → List Char →
    Outcome (Slots fs)
  | [], (), cs =>
    readAfterColon (fun cs => orSyntax ((Json.skipValue? cs).map ((), ·))) cs
  | f :: fs, (slot, slots), cs =>
    if name = f.name then
      if slot.isSome then .error (.shape (.duplicateField name))
      else (readAfterColon (readKind depth f.kind) cs).map fun (v, rest) => ((some v, slots), rest)
    else (readMember depth name fs slots cs).map fun (slots, rest) => ((slot, slots), rest)

/-- Reads the members of an object up to its closing brace, the first one being at the start of
the text; the first argument bounds the number of steps. -/
def readMembers (depth : Nat) (fs : List Field) : Nat → Slots fs → List Char → Outcome (Slots fs)
  | 0, _, _ => .error .syntaxError
  | steps + 1, slots, cs =>
    match Json.readText? true cs with
    | none => .error .syntaxError
    | some (name, rest) =>
      match readMember depth name fs slots rest with
      | .error e => .error e
      | .ok (slots, rest) =>
        match Json.skipBlanks rest with
        | ',' :: rest => readMembers depth fs steps slots (Json.skipBlanks rest)
        | '\x7d' :: rest => .ok (slots, rest)
        | _ => .error .syntaxError

/-- The values of all fields, when an object has ended. -/
def complete : (fs : List Field) → Slots fs → Except DecodeError (Values fs)
  | [], () => .ok ()
  | f :: fs, (slot, slots) =>
    match slot <|> f.ifAbsent? with
    | some v => (complete fs slots).map (v, ·)
    | none => .error (.shape (.missingField f.name))

/-- Reads an object after its opening brace. -/
def readObject (depth : Nat) (fs : List Field) (cs : List Char) : Outcome (Values fs) :=
  let read : Outcome (Slots fs) := match Json.skipBlanks cs with
    | '\x7d' :: rest => .ok (noSlots fs, rest)
    | start => readMembers depth fs start.length (noSlots fs) start
  match read with
  | .ok (slots, rest) => (complete fs slots).map (·, rest)
  | .error e => .error e

/-! ### Arrays -/

/-- Whether an array has another element. -/
inductive Next where
  /-- The element starts here. -/
  | element (cs : List Char)
  /-- The closing bracket is here. -/
  | closing (cs : List Char)
  | broken

/-- Finds the next element of an array, or its end. -/
def nextElement (first : Bool) (cs : List Char) : Next :=
  match Json.skipBlanks cs with
  | ']' :: rest => .closing (']' :: rest)
  | [] => .broken
  | c :: rest =>
    if first then .element (c :: rest)
    else if c = ',' then
      match Json.skipBlanks rest with
      | ']' :: _ => .broken
      | [] => .broken
      | start => .element start
    else .broken

/-- Reads the elements of an array into the fields, `read` fields having been read before; the
closing bracket is left. -/
def readElements (request : String) (count depth : Nat) : (read : Nat) → (fs : List Field) →
    List Char → Outcome (Values fs)
  | _, [], cs => .ok ((), cs)
  | read, f :: fs, cs =>
    match nextElement (read == 0) cs with
    | .broken => .error .syntaxError
    | .closing rest =>
      match f.fallback with
      | none => .error (.shape (.tooShort read request count))
      | some v =>
        (readElements request count depth (read + 1) fs rest).map fun (vs, rest) => ((v, vs), rest)
    | .element start =>
      match readKind depth f.kind start with
      | .error e => .error e
      | .ok (v, rest) =>
        (readElements request count depth (read + 1) fs rest).map fun (vs, rest) => ((v, vs), rest)

/-- Reads an array after its opening bracket. -/
def readArray (request : String) (depth : Nat) (fs : List Field) (cs : List Char) :
    Outcome (Values fs) :=
  match readElements request fs.length depth 0 fs cs with
  | .error e => .error e
  | .ok (vs, rest) =>
    match Json.skipBlanks rest with
    | ']' :: rest => .ok (vs, rest)
    | _ => .error .syntaxError

/-! ### Bodies -/

/-- Reads the fields of a request, and returns what follows. -/
def read (request : String) (fs : List Field) (cs : List Char) : Outcome (Values fs) :=
  let depth := Json.maxDepth - 1
  match Json.skipBlanks cs with
  | '\x7b' :: rest => readObject depth fs rest
  | '[' :: rest => readArray request depth fs rest
  | start => refuse ("struct " ++ request) start

end Reckoner.Request
