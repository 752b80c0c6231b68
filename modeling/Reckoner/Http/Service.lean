/-
What the server does for its callers.

Behind an endpoint that takes requests stands a service: a way to read the request, an operation
of the library, and the data in which its result is given.  How a service is reached, and what
becomes of a request that it cannot read, is not its concern.
-/
import Reckoner.Amount
import Reckoner.Graph.Plot
import Reckoner.Http.Server
import Reckoner.Json.Value
import Reckoner.Request.Basic
import Reckoner.Units.Conversion

namespace Reckoner.Http

/-- The data of an answer. -/
abbrev Data := List (String × Json)

/-- A number as JSON. -/
def number (v : Double) : Json := .number (.float v)

/-- What stands behind an endpoint that takes requests. -/
structure Service where
  /-- The requests that are taken. -/
  Query : Type
  read : List Char → Request.Outcome Query
  /-- What can go wrong with the operation. -/
  Error : Type
  /-- An error of the operation among all that can go wrong. -/
  cause : Error → Failure
  Result : Type
  operation : Query → Except Error Result
  /-- The data in which the result is given. -/
  data : Result → Data

/-- The text of an error. -/
def Service.message (s : Service) (e : s.Error) : String := (s.cause e).message

/-! ### Conversions -/

/-- The conversion into one unit. -/
def conversion : Service where
  Query := ConvertRequest
  read := ConvertRequest.read
  Error := ConversionError
  cause := .conversion
  Result := Double
  operation q := Reckoner.convert q.category q.source q.target q.value
  data v := [("result", .text (Amount.text v)), ("value", number v)]

/-- The category of a request for a conversion into all units, which may name none. -/
def categoryOr (fallback : Category) : Option String → Except ConversionError Category
  | some name => Category.resolve name
  | none => .ok fallback

/-- One unit in the answer to a conversion into all units. -/
def conversionEntry : String × Except ConversionError Double → Json
  | (unit, .ok v) =>
    .object [("unit", .text unit), ("result", .text (Amount.text v)), ("value", number v)]
  | (unit, .error e) =>
    .object [("unit", .text unit), ("result", .text "Error"), ("error", .text e.message)]

/-- The conversion into all units of a category, of the given one if the request names none. -/
def conversionIntoAll (fallback : Category) : Service where
  Query := ConvertAllRequest
  read := ConvertAllRequest.read
  Error := ConversionError
  cause := .conversion
  Result := List (String × Except ConversionError Double)
  operation q := do
    let c ← categoryOr fallback q.category
    c.convertAll q.source q.value
  data results := [("results", .array (results.map conversionEntry))]

/-! ### Calculations -/

/-- The calculation of an expression. -/
def calculation : Service where
  Query := CalculateRequest
  read := CalculateRequest.read
  Error := CalculationError
  cause := .calculation
  Result := Double
  operation q := Calculation.evaluate q.expression
  data v := [("result", .text (Amount.text v))]

/-- The sampling of a graph. -/
def sampling (config : ServerConfig) : Service where
  Query := GraphRequest
  read := GraphRequest.read
  Error := Failure
  cause := id
  Result := Plot
  operation q := Plot.ofText q.expression q.xMin q.xMax q.samples config.maxGraphSamples none
  data plot :=
    [("xs", .array (plot.points.map fun p => number p.x)),
      ("ys", .array (plot.points.map fun p => number p.y))] ++
    match plot.window with
    | some w => [("ymin", number w.min), ("ymax", number w.max)]
    | none => []

/-- An operation on words. -/
def wordOperation : Service where
  Query := ProgrammerRequest
  read := ProgrammerRequest.read
  Error := WordError
  cause := .words
  Result := String
  operation q := do
    let radix ← Radix.ofName q.radix
    let size ← WordSize.ofBits q.wordSize
    evaluateWords q.lhs q.op q.rhs radix size
  data text := [("result", .text text)]

/-! ### Categories -/

/-- A category in the list of categories. -/
def categoryEntry (c : Category) : Json :=
  .object [("id", .text c.id), ("name", .text c.name), ("group", .text c.group.name),
    ("units", .array (c.units.map .text))]

/-- The list of categories, for which nothing is to be read. -/
def categories : Data := [("categories", .array (Category.all.map categoryEntry))]

end Reckoner.Http
