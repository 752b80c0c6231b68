/-
How the server answers.

The answer of a service has one of two shapes.  Data follows a member that tells of success, and a
refusal holds a message and nothing else but that it is no success.  The message is the operation's
own if the request could be read, and if it could not be read then the operation is not asked.  All
other answers are empty, apart from the list of categories.
-/
import Reckoner.Http.Router

namespace Reckoner.Http

/-! ### The two shapes -/

/-- The answer with which data is given. -/
def accepted (data : Data) : HttpResponse :=
  ⟨200, (Json.object (("success", .bool true) :: data)).print⟩

/-- The answer with which a request is refused. -/
def refused (message : String) : HttpResponse :=
  ⟨400, (Json.object [("error", .text message), ("success", .bool false)]).print⟩

/-! ### Paths -/

/-- The path to which a target leads, without the query. -/
def pathOf (target : String) : List Char := target.toList.takeWhile fun c => c != '?' && c != '#'

/-- No two endpoints have one path. -/
theorem ofTarget?_eq_some {target : String} {endpoint : Endpoint} :
    Endpoint.ofTarget? target = some endpoint ↔ pathOf target = endpoint.path.toList := by
  show Endpoint.all.find? (fun e => e.path.toList == pathOf target) = some endpoint ↔ _
  constructor
  · intro h
    have hfound := List.find?_some h
    exact (eq_of_beq hfound).symm
  · intro h
    rw [h]
    cases endpoint <;> rfl

variable {config : ServerConfig} {endpoint : Endpoint} {s : Service} {r : HttpRequest}

/-- An endpoint asks its service. -/
theorem run_eq (h : service? config endpoint = some s) (r : HttpRequest) :
    run config r endpoint = s.run r := by
  rw [run, h]

/-- Services are asked by posting to them. -/
theorem method_of_service? (h : service? config endpoint = some s) : endpoint.method = "POST" := by
  cases endpoint with
  | categories => cases h
  | convert | convertAll | convertMisc | calculate | graphSample | programmer => rfl

/-! ### Answers of services -/

/-- What a service answers to a request. -/
inductive Service.Answers (s : Service) (r : HttpRequest) : HttpResponse → Prop where
  /-- The request could not be read, and the operation was not asked. -/
  | unreadable {text : String} (h : decode s.read r = .error (.validation text)) :
      Answers s r (refused ("Validation Error: " ++ text))
  /-- The operation failed. -/
  | failed {q : s.Query} {e : s.Error} (h : decode s.read r = .ok q)
      (he : s.operation q = .error e) : Answers s r (refused (s.message e))
  /-- The operation had a result. -/
  | done {q : s.Query} {v : s.Result} (h : decode s.read r = .ok q)
      (hv : s.operation q = .ok v) : Answers s r (accepted (s.data v))

/-- Whatever is wrong with a body is a matter of validation. -/
theorem validation_of_decode {α : Type} {read : List Char → Request.Outcome α} {e : Failure}
    (h : decode read r = .error e) : ∃ text, e = .validation text := by
  unfold decode at h
  split at h
  · cases h
    exact ⟨_, rfl⟩
  · split at h
    · cases h
      exact ⟨_, rfl⟩
    · cases hread : Request.leading read r.body with
      | ok q =>
          rw [hread] at h
          cases h
      | error cause =>
          rw [hread] at h
          cases h
          cases cause <;> exact ⟨_, rfl⟩

theorem Service.answers_run (s : Service) (r : HttpRequest) : s.Answers r (envelope (s.run r)) := by
  rw [Service.run]
  cases hdecode : decode s.read r with
  | error e =>
      obtain ⟨text, rfl⟩ := validation_of_decode hdecode
      exact .unreadable hdecode
  | ok q =>
      show s.Answers r (envelope (Failure.lift s.cause (s.operation q) >>= _))
      cases hoperation : s.operation q with
      | error e => exact .failed hdecode hoperation
      | ok v => exact .done hdecode hoperation

theorem answers_run (h : service? config endpoint = some s) (r : HttpRequest) :
    s.Answers r (envelope (run config r endpoint)) := by
  rw [run_eq h]
  exact s.answers_run r

/-- What a service answers to a request that reads as a query. -/
def Service.answer (s : Service) (q : s.Query) : HttpResponse :=
  match s.operation q with
  | .ok v => accepted (s.data v)
  | .error e => refused (s.message e)

theorem Service.answer_ok {q : s.Query} {v : s.Result} (h : s.operation q = .ok v) :
    s.answer q = accepted (s.data v) := by
  rw [answer, h]

theorem Service.answer_error {q : s.Query} {e : s.Error} (h : s.operation q = .error e) :
    s.answer q = refused (s.message e) := by
  rw [answer, h]

theorem Service.Answers.eq_answer {a : HttpResponse} {q : s.Query} (h : s.Answers r a)
    (hq : decode s.read r = .ok q) : a = s.answer q := by
  cases h with
  | unreadable h =>
      rw [h] at hq
      cases hq
  | failed h he =>
      rw [h] at hq
      cases hq
      exact (Service.answer_error he).symm
  | done h hv =>
      rw [h] at hq
      cases hq
      exact (Service.answer_ok hv).symm

/-! ### Answers of the server -/

theorem respond_of_path (h : pathOf r.target = endpoint.path.toList) :
    respond config r =
      if r.method = endpoint.method then envelope (run config r endpoint)
      else if r.method = "HEAD" ∧ endpoint.method = "GET" then ⟨200, ""⟩
      else ⟨405, ""⟩ := by
  rw [respond, ofTarget?_eq_some.mpr h]

theorem respond_service (h : pathOf r.target = endpoint.path.toList)
    (hs : service? config endpoint = some s) :
    respond config r =
      if r.method = "POST" then envelope (run config r endpoint) else ⟨405, ""⟩ := by
  rw [respond_of_path h, method_of_service? hs]
  simp

/-- A request posts a query to an endpoint. -/
structure Posts {α : Type} (endpoint : Endpoint) (read : List Char → Request.Outcome α) (q : α)
    (r : HttpRequest) : Prop where
  method : r.method = "POST"
  path : pathOf r.target = endpoint.path.toList
  body : decode read r = .ok q

/-- What is answered to a post depends on nothing but the query. -/
theorem respond_posts {q : s.Query} (hs : service? config endpoint = some s)
    (h : Posts endpoint s.read q r) : respond config r = s.answer q := by
  rw [respond_service h.path hs, if_pos h.method]
  exact (answers_run hs r).eq_answer h.body

end Reckoner.Http
