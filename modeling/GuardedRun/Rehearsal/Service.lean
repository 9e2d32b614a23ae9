import GuardedRun.Engine.Http
import GuardedRun.Json.Writer
import GuardedRun.Rehearsal.Engine

/-!
What can answer requests in a rehearsal: a list of prepared outcomes, or a rehearsal engine that is
served under a binding. The engine's failures take the form in which a client tells them apart.
-/

namespace GuardedRun.Rehearsal

namespace Engine

def succeeded (data : Json) : Http.Response where
  status := 200
  body := .ofText (Json.obj [("ok", .bool true), ("data", data)]).render

def refused (message : String) (log : List String) : Http.Response where
  status := 200
  body := .ofText (Json.obj [("ok", .bool false),
    ("error", .obj [("message", .str message), ("log", Json.strings log)])]).render

/-- The response that a client reads as the given failure. -/
def failed : EngineError → Http.Response
  | .communication _ _ => { status := 503, body := .ofText "unavailable" }
  | .application _ message log => refused message log
  | .protocol _ _ => { status := 200, body := .ofText "undecodable" }

def notFound : Http.Response := { status := 404, body := .ofText "not found" }

/-- The method that a path names below a binding. -/
def method? (binding path : String) : Option String :=
  let base := s!"/{binding}/".toList
  if base.isPrefixOf path.toList then some (String.ofList (path.toList.drop base.length)) else none

/-- The demand that a request under a binding makes. -/
def demand? (binding : String) (request : Http.Request) : Option Demand := do
  Demand.ofBody? (← method? binding request.path) request.body

/-- Answers a request to a binding. -/
def respond (binding : String) (request : Http.Request) (e : Engine) : Http.Response × Engine :=
  match demand? binding request with
  | none => (notFound, e)
  | some demand =>
    match e.answer demand with
    | (.ok data, e) => (succeeded data, e)
    | (.error error, e) => (failed error, e)

end Engine

inductive Service
  /-- Prepared outcomes, one a request; the last one is repeated. -/
  | prepared (outcomes : List Http.Outcome)
  | engine (binding : String) (engine : Engine)

namespace Service

/-- Some responses have no body, whatever was sent as one. -/
def carried (response : Http.Response) : Http.Response :=
  if response.status = 204 ∨ response.status = 304 then { response with body := .ofText "" } else response

def closed : Http.Outcome := .error "connection closed without a response"

def answer (request : Http.Request) : Service → Http.Outcome × Service
  | prepared [] => (closed, prepared [])
  | prepared [outcome] => (outcome.map carried, prepared [outcome])
  | prepared (outcome :: rest) => (outcome.map carried, prepared rest)
  | engine binding e =>
    let (response, e) := e.respond binding request
    (.ok response, engine binding e)

/-- The service has raised the interrupt. -/
def interrupted : Service → Bool
  | prepared _ => false
  | engine _ e => e.interrupted

end Service

end GuardedRun.Rehearsal
