import GuardedRun.Engine.Call
import GuardedRun.Json.Bytes

/-!
Calls over HTTP. A call is posted to its method's path below the binding, with a JSON body; the
engine answers with an envelope that says whether it agreed, why it refused, and what it found.
Every outcome of the exchange is either a reply of the call's type or one of the engine's errors. What
makes an envelope of a body is a library's affair; a reader stands for it, and one is given here.
-/

namespace GuardedRun.Http

structure Request where
  path : String
  body : Json

/-- The body of a response, as far as it could be read. -/
structure Body where
  bytes : List UInt8
  /-- The reading came to the end of the body. -/
  whole : Bool := true
  deriving DecidableEq, Repr

def Body.ofText (text : String) : Body where
  bytes := text.toList.flatMap String.utf8EncodeChar

structure Response where
  status : Nat
  body : Body
  deriving DecidableEq, Repr

/-- What an exchange comes to: a response, or the reason why there is none. -/
abbrev Outcome := Except String Response

/-- The request that carries a call to an engine under the given path. -/
def request (basePath : String) (call : Call) : Request where
  path := basePath ++ "/" ++ call.method
  body := call.body

/-- A refusal as the engine describes it. -/
structure Refusal where
  message : String := ""
  log : List String := []
  deriving DecidableEq, Repr

structure Envelope where
  ok : Bool
  refusal : Option Refusal
  data : Json

/-- How deep arrays and objects may stand in one another, the envelope included. -/
def maxNesting : Nat := 127

namespace Envelope

open Json (Source)

def text? : Source → Option String
  | .string units => Json.unitText? units
  | _ => none

def flag? : Source → Option Bool
  | .bool b => some b
  | _ => none

def texts? : List Source → Option (List String)
  | [] => some []
  | s :: rest => do
    let t ← text? s
    let ts ← texts? rest
    return t :: ts

def log? : Source → Option (List String)
  | .array items => texts? items
  | _ => none

def data? (s : Source) : Option Json := if s.nesting + 1 ≤ maxNesting then s.value? else none

/-- The members with readable keys, as far as they carry the given key. -/
def occurrences (key : String) (members : List (String × Source)) : List Source :=
  (members.filter (·.1 = key)).map (·.2)

/-- A field of an object; a field that is given twice cannot be read. -/
def field? (key : String) (members : List (String × Source)) : Option (Option Source) :=
  match occurrences key members with
  | [] => some none
  | [s] => some (some s)
  | _ => none

def keys? : List (List Json.StringUnit × Source) → Option (List (String × Source))
  | [] => some []
  | (units, s) :: rest => do
    let key ← Json.unitText? units
    let others ← keys? rest
    return (key, s) :: others

/-- A field that may be left out. -/
def orElse? {α : Type} (default : α) (read : Source → Option α) : Option Source → Option α
  | none => some default
  | some s => read s

def refusal? : Source → Option Refusal
  | .object members => do
    let members ← keys? members
    let message ← orElse? "" text? (← field? "message" members)
    let log ← orElse? [] log? (← field? "log" members)
    return { message, log }
  | .array [] => some {}
  | .array [message] => return { message := ← text? message }
  | .array [message, log] => return { message := ← text? message, log := ← log? log }
  | _ => none

def error? : Source → Option (Option Refusal)
  | .null => some none
  | s => (refusal? s).map some

/-- Reads an envelope. Only `ok` has to be there; members that nobody knows are skipped. -/
def ofSource? : Source → Option Envelope
  | .object members => do
    let members ← keys? members
    let ok ← flag? (← (← field? "ok" members))
    let refusal ← orElse? none error? (← field? "error" members)
    let data ← orElse? .null data? (← field? "data" members)
    return { ok, refusal, data }
  | .array [ok] => return { ok := ← flag? ok, refusal := none, data := .null }
  | .array [ok, error] => return { ok := ← flag? ok, refusal := ← error? error, data := .null }
  | .array [ok, error, data] =>
    return { ok := ← flag? ok, refusal := ← error? error, data := ← data? data }
  | _ => none

/-- Makes an envelope of a body, or says why it makes none. -/
abbrev Reader := Body → Except String Envelope

/-- The reader of envelopes in JSON. A body whose end is not reached is no JSON text. -/
def read : Reader := fun body =>
  match if body.whole then Source.ofBytes body.bytes >>= ofSource? else none with
  | some envelope => .ok envelope
  | none => .error "expected an envelope"

end Envelope

/-- The error for a refusal; one without a message gets a substitute. -/
def refused (method : String) (refusal : Option Refusal) : EngineError :=
  let refusal := refusal.getD {}
  if Text.isBlankText refusal.message then
    .application method "unspecified engine error" refusal.log
  else .application method refusal.message refusal.log

/-- The data that an outcome carries to the caller of a method. From status 400 on only a refusal
in an envelope is the engine's own word. -/
def dataOf (read : Envelope.Reader) (method : String) : Outcome → Except EngineError Json
  | .error reason => .error (.communication method reason)
  | .ok response =>
    match read response.body with
    | .ok { ok := false, refusal, .. } => .error (refused method refusal)
    | .ok { ok := true, data, .. } =>
      if response.status < 400 then .ok data
      else .error (.communication method s!"http status {response.status}")
    | .error reason =>
      if response.status < 400 then .error (.protocol method reason)
      else .error (.communication method s!"http status {response.status}")

/-- The reply or the error that an outcome means for a call. -/
def interpret (read : Envelope.Reader) (call : Call) (outcome : Outcome) :
    Except EngineError call.Reply := do
  let data ← dataOf read call.method outcome
  match call.decodeReply data with
  | .ok reply => .ok reply
  | .error fault => .error (.protocol call.method fault.message)

end GuardedRun.Http
