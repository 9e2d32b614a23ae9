import GuardedRun.Engine.Endpoint
import GuardedRun.Session
import GuardedRun.Text.Seconds

/-!
Finding the engine, and starting it where it is not running. The engine counts as running if it
answers a lookup under its binding; whatever else comes of the lookup, it is not running. It is
started at most once, and looked up once more after a time to start; the process is left running.
-/

namespace GuardedRun

/-- How to start an engine. -/
structure Bootstrap where
  executables : List Path
  /-- The time for the engine to start, in milliseconds. -/
  grace : Nat
  extraArgs : List String
  deriving DecidableEq, Repr

inductive ConnectError
  | notRunning (endpoint reason : String)
  | bootstrapFailed (endpoint reason : String)
  | interrupted
  deriving DecidableEq, Repr

namespace ConnectError

def message : ConnectError → String
  | notRunning endpoint reason => s!"engine is not running at {endpoint}: {reason}"
  | bootstrapFailed endpoint reason => s!"failed to bootstrap engine at {endpoint}: {reason}"
  | interrupted => "interrupted while waiting for the engine to start"

end ConnectError

/-- Why a failed lookup means that the engine is not running. -/
def EngineError.lookupReason : EngineError → String
  | .communication _ reason => reason
  | .application _ message _ => s!"binding rejected: {message}"
  | .protocol _ reason => s!"unexpected lookup response: {reason}"

namespace Bootstrap

/-- The first candidate that is a regular file. -/
def selectExecutable (isFile : Path → Bool) (candidates : List Path) : Option Path :=
  candidates.find? isFile

/-- The arguments that an engine is started with. -/
def arguments (endpoint : Endpoint) (extraArgs : List String) : List String :=
  ["--api-port", toString endpoint.port.toNat, "--api-binding", endpoint.binding] ++ extraArgs

/-- Why none of the candidates can be started. -/
def noExecutableReason (candidates : List Path) : String :=
  if candidates.isEmpty then "no engine executable configured"
  else
    let tried := ", ".intercalate (candidates.map (·.text))
    s!"no engine executable found (tried: {tried})"

end Bootstrap

namespace Session

variable {σ : Type}

/-- Looks the engine up; a failure comes with the reason. -/
def lookup : Session σ (Except String Unit) := do
  match ← ask .ping with
  | .ok _ => return .ok ()
  | .error e => return .error e.lookupReason

/-- The first candidate that is a regular file by now. -/
def selectExecutable (candidates : List Path) : Session σ (Option Path) := fun env =>
  OptionT.mk fun w => (some (Bootstrap.selectExecutable (env.isFile · w.outside) candidates), w)

end Session

namespace Attempt

variable {σ : Type}

open MonadSession

/-- Looks the engine up without starting it. -/
def connect (endpoint : Endpoint) : Attempt σ ConnectError Unit := do
  match ← liftSession Session.lookup with
  | .ok () => return ()
  | .error reason => throw (.notRunning endpoint.text reason)

/-- Starts the engine and waits until it should have come up. -/
def startEngine (endpoint : Endpoint) (bootstrap : Bootstrap) : Attempt σ ConnectError Unit := do
  match ← liftSession (Session.selectExecutable bootstrap.executables) with
  | none =>
    let reason := Bootstrap.noExecutableReason bootstrap.executables
    error "engine.bootstrap.no_executable" reason
    throw (.bootstrapFailed endpoint.text reason)
  | some executable =>
    let arguments := Bootstrap.arguments endpoint bootstrap.extraArgs
    match ← liftSession (Session.launch executable arguments) with
    | .error reason =>
      let reason := s!"failed to start {executable}: {reason}"
      error "engine.bootstrap.spawn_failed" reason
      throw (.bootstrapFailed endpoint.text reason)
    | .ok pid =>
      let grace := Text.seconds bootstrap.grace
      info "engine.bootstrap.spawned"
        s!"started {executable} (pid={pid}); waiting {grace}s for startup"
      unless ← liftSession (Session.sleep bootstrap.grace) do
        warn "engine.bootstrap.interrupted" "interrupted while waiting for engine startup"
        throw .interrupted

/-- Looks the engine up and starts it if it is not running. -/
def ensureRunning (endpoint : Endpoint) (bootstrap : Bootstrap) : Attempt σ ConnectError Unit := do
  match ← liftSession Session.lookup with
  | .ok () => info "engine.connected" s!"connected to engine at {endpoint}"
  | .error reason =>
    info "engine.not_running"
      s!"engine not reachable at {endpoint} ({reason}); trying to start it"
    startEngine endpoint bootstrap
    match ← liftSession Session.lookup with
    | .ok () => info "engine.connected" s!"connected to engine at {endpoint} after startup"
    | .error reason =>
      error "engine.bootstrap.unreachable"
        s!"engine still unreachable at {endpoint} after startup: {reason}"
      throw (.bootstrapFailed endpoint.text s!"engine still unreachable after startup: {reason}")

end Attempt

end GuardedRun
