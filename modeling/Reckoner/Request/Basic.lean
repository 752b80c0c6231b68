/-
The requests of the web interface.

Each request lists its fields once, in order, with what stands for a field that is left out.
-/
import Reckoner.Graph.Sample
import Reckoner.Programmer.Word
import Reckoner.Request.Decoder
import Reckoner.Units.Category

namespace Reckoner

/-- A value to convert from one unit into another. -/
structure ConvertRequest where
  category : String
  source : String
  target : String
  value : Double
  deriving DecidableEq

/-- A value to convert into all units of its category. -/
structure ConvertAllRequest where
  category : Option String
  source : String
  value : Double
  deriving DecidableEq

/-- An expression to calculate. -/
structure CalculateRequest where
  expression : String
  deriving DecidableEq

/-- An expression to sample. -/
structure GraphRequest where
  expression : String
  xMin : Double
  xMax : Double
  samples : Nat
  deriving DecidableEq

/-- An operation on words. -/
structure ProgrammerRequest where
  lhs : String
  op : String
  rhs : Option String
  radix : String
  wordSize : Nat
  deriving DecidableEq

namespace Request

/-- A body read as a request and nothing after it but blanks. -/
def whole {α : Type} (read : List Char → Outcome α) (body : String) : Except DecodeError α :=
  match read body.toList with
  | .error e => .error e
  | .ok (r, rest) => if (Json.skipBlanks rest).isEmpty then .ok r else .error .syntaxError

/-- A body read as a request, whatever comes after it. -/
def leading {α : Type} (read : List Char → Outcome α) (body : String) : Except DecodeError α :=
  (read body.toList).map Prod.fst

end Request

namespace ConvertRequest

/-- The fields of the request. -/
def fields : List Field :=
  [⟨"category", .text, some Category.length.name⟩, ⟨"from_unit", .text, none⟩,
    ⟨"to_unit", .text, none⟩, ⟨"value", .number, some 0.0⟩]

/-- Reads the request. -/
def read (cs : List Char) : Request.Outcome ConvertRequest :=
  (Request.read "ConvertRequest" fields cs).map fun
    | ((category, source, target, value, ()), rest) => (⟨category, source, target, value⟩, rest)

end ConvertRequest

namespace ConvertAllRequest

/-- The fields of the request. -/
def fields : List Field :=
  [⟨"category", .optionalText, none⟩, ⟨"from_unit", .text, none⟩, ⟨"value", .number, some 0.0⟩]

/-- Reads the request. -/
def read (cs : List Char) : Request.Outcome ConvertAllRequest :=
  (Request.read "ConvertAllRequest" fields cs).map fun
    | ((category, source, value, ()), rest) => (⟨category, source, value⟩, rest)

end ConvertAllRequest

namespace CalculateRequest

/-- The fields of the request. -/
def fields : List Field := [⟨"expr", .text, some ""⟩]

/-- Reads the request. -/
def read (cs : List Char) : Request.Outcome CalculateRequest :=
  (Request.read "CalculateRequest" fields cs).map fun
    | ((expression, ()), rest) => (⟨expression⟩, rest)

end CalculateRequest

namespace GraphRequest

/-- The fields of the request. -/
def fields : List Field :=
  [⟨"expr", .text, some "sin(x)"⟩, ⟨"xmin", .number, some (-10.0)⟩,
    ⟨"xmax", .number, some 10.0⟩, ⟨"samples", .count, some Graph.defaultSamples⟩]

/-- Reads the request. -/
def read (cs : List Char) : Request.Outcome GraphRequest :=
  (Request.read "GraphSampleRequest" fields cs).map fun
    | ((expression, xMin, xMax, samples, ()), rest) => (⟨expression, xMin, xMax, samples⟩, rest)

end GraphRequest

namespace ProgrammerRequest

/-- The fields of the request. -/
def fields : List Field :=
  [⟨"lhs", .text, none⟩, ⟨"op", .text, none⟩, ⟨"rhs", .optionalText, none⟩,
    ⟨"radix", .text, some Radix.dec.label⟩, ⟨"word_size", .smallCount, some WordSize.bits32.bits⟩]

/-- Reads the request. -/
def read (cs : List Char) : Request.Outcome ProgrammerRequest :=
  (Request.read "ProgrammerRequest" fields cs).map fun
    | ((lhs, op, rhs, radix, wordSize, ()), rest) => (⟨lhs, op, rhs, radix, wordSize⟩, rest)

end ProgrammerRequest

end Reckoner
