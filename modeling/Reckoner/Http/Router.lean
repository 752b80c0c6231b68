/-
The web interface.

Every endpoint decodes its request, has its service do what is asked and wraps the outcome:
`success` and the data with status 200, or the text of the failure with status 400, whatever
failed.
-/
import Reckoner.Http.MediaType
import Reckoner.Http.Service
import Reckoner.Json.Printer

namespace Reckoner

/-- A request to the server. -/
structure HttpRequest where
  method : String
  /-- The path, with the query if there is one. -/
  target : String
  contentType : Option String
  body : String

/-- The server's answer. -/
structure HttpResponse where
  status : Nat
  body : String
  deriving DecidableEq

namespace Http

/-- What the server offers. -/
inductive Endpoint where
  | convert
  | convertAll
  | convertMisc
  | calculate
  | graphSample
  | programmer
  | categories
  deriving DecidableEq, Repr

namespace Endpoint

/-- All endpoints. -/
def all : List Endpoint :=
  [convert, convertAll, convertMisc, calculate, graphSample, programmer, categories]

/-- The path of an endpoint. -/
def path : Endpoint → String
  | convert => "/api/convert"
  | convertAll => "/api/convert-all"
  | convertMisc => "/api/convert-misc"
  | calculate => "/api/calculate"
  | graphSample => "/api/graph-sample"
  | programmer => "/api/programmer"
  | categories => "/api/categories"

/-- The endpoint to which a target leads; the query does not matter. -/
def ofTarget? (target : String) : Option Endpoint :=
  let path := target.toList.takeWhile fun c => c != '?' && c != '#'
  all.find? fun e => e.path.toList == path

end Endpoint

/-! ### Decoding -/

/-- The most bytes a body may have. -/
def maxBodyBytes : Nat := 2 * 1024 * 1024

/-- Why the body of a request does not reach its operation.  A wrong shape is told as it was found,
but not where in the body that is, and what is no JSON is not told further. -/
def rejection : DecodeError → Failure
  | .syntaxError => .validation "Failed to parse the request body as JSON"
  | .shape e =>
    .validation ("Failed to deserialize the JSON body into the target type: " ++ e.message)

/-- Whether the body of a request is announced as JSON. -/
def hasJsonBody (r : HttpRequest) : Bool := r.contentType.any MediaType.isJson

/-- The body of a request, decoded; what comes after the JSON text does not matter. -/
def decode {α : Type} (read : List Char → Request.Outcome α) (r : HttpRequest) : Except Failure α :=
  if !hasJsonBody r then
    .error (.validation "Expected request with `Content-Type: application/json`")
  else if maxBodyBytes < r.body.utf8ByteSize then
    .error (.validation "Failed to buffer the request body: length limit exceeded")
  else Failure.lift rejection (Request.leading read r.body)

/-! ### Routing -/

/-- The answer to a request that reached its operation or failed to. -/
def envelope : Except Failure Data → HttpResponse
  | .ok data => ⟨200, (Json.object (("success", .bool true) :: data)).print⟩
  | .error e =>
    ⟨400, (Json.object [("error", .text e.message), ("success", .bool false)]).print⟩

/-- The service behind an endpoint, if there is one. -/
def service? (config : ServerConfig) : Endpoint → Option Service
  | .convert => some conversion
  | .convertAll => some (conversionIntoAll .length)
  | .convertMisc => some (conversionIntoAll .angle)
  | .calculate => some calculation
  | .graphSample => some (sampling config)
  | .programmer => some wordOperation
  | .categories => none

/-- What a service makes of a request. -/
def Service.run (s : Service) (r : HttpRequest) : Except Failure Data := do
  let q ← decode s.read r
  let v ← Failure.lift s.cause (s.operation q)
  return s.data v

/-- What an endpoint makes of a request. -/
def run (config : ServerConfig) (r : HttpRequest) (endpoint : Endpoint) : Except Failure Data :=
  match service? config endpoint with
  | some s => s.run r
  | none => .ok categories

/-- The method by which an endpoint is called. -/
def Endpoint.method : Endpoint → String
  | categories => "GET"
  | _ => "POST"

/-- The answer to a request. -/
def respond (config : ServerConfig) (r : HttpRequest) : HttpResponse :=
  match Endpoint.ofTarget? r.target with
  | none => ⟨404, ""⟩
  | some endpoint =>
    if r.method = endpoint.method then envelope (run config r endpoint)
    else if r.method = "HEAD" ∧ endpoint.method = "GET" then ⟨200, ""⟩
    else ⟨405, ""⟩

end Http

end Reckoner
