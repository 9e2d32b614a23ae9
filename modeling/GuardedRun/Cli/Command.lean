import GuardedRun.Cli.Failure
import GuardedRun.Cli.Flags
import GuardedRun.Cli.Verb
import GuardedRun.Settings.Basic

/-!
The commands that work with an engine. A command is read off its arguments before anything is asked
of the engine; carrying it out is a session that ends with the text to print.
-/

namespace GuardedRun.Cli

/-- A command with its arguments understood. -/
inductive Command
  | run (request : ExecutionRequest)
  | regenerateReport (request : ReportRequest)
  | closeProject (project : Path)
  | ping
  | startEngine
  deriving DecidableEq, Repr

namespace Command

/-- Reads the command of a verb; the verbs without one have nothing to be read. -/
def parse? (workingDirectory : Except String Path) (verb : Verb) (arguments : List String) :
    Except FlagError (Option Command) :=
  match verb with
  | .run => (parseRun workingDirectory arguments).map fun r => some (run r)
  | .regenerateReport =>
    (parseReport workingDirectory arguments).map fun r => some (regenerateReport r)
  | .closeProject => (parseClose workingDirectory arguments).map fun p => some (closeProject p)
  | .ping => (expectNone "ping" arguments).map fun _ => some ping
  | .startEngine => (expectNone "start-engine" arguments).map fun _ => some startEngine
  | .help | .unknown => .ok none

end Command

open MonadSession

variable {σ : Type}

/-- Finds the engine; it is started only where the settings allow that. -/
def openEngine (settings : Settings) : Attempt σ ConnectError Unit := do
  let endpoint := settings.endpoint
  if settings.bootstrap.enabled then
    Attempt.ensureRunning endpoint settings.bootstrapOptions
  else
    match ← liftSession (Attempt.connect endpoint).run with
    | .ok () => info "engine.connected" s!"connected to engine at {endpoint}"
    | .error e =>
      error "engine.not_running" e.message
      throw e

/-- Orchestrations as the settings want them. -/
def orchestration (settings : Settings) (rounds : Nat) : Orchestration where
  polling := settings.pollingOptions
  tempPattern := settings.orchestration.tempTestSetPrefix
  rounds := rounds

def closedText (project : Path) (wasOpen : Bool) : String :=
  if wasOpen then s!"closed project {project}" else s!"project {project} was not open"

def reportText (outcome : Outcome) : String :=
  s!"overview report of `{outcome.configuration}` regenerated ({outcome.reassigned.length} item(s) reassigned)"

namespace Command

/-- Carries a command out, following an execution for a number of rounds. -/
def perform (settings : Settings) (rounds : Nat) : Command → Attempt σ Failure String
  | ping => do
    ExceptT.adapt Failure.ofConnect (Attempt.connect settings.endpoint)
    return s!"engine reachable at {settings.endpoint}"
  | startEngine => do
    ExceptT.adapt Failure.ofConnect (openEngine settings)
    return s!"engine running at {settings.endpoint}"
  | closeProject project => do
    ExceptT.adapt Failure.ofConnect (openEngine settings)
    let wasOpen ← ExceptT.adapt
      (fun e : EngineError => .failed s!"failed to close project: {e.message}")
      (Attempt.closeProject project)
    return closedText project wasOpen
  | regenerateReport request => do
    ExceptT.adapt Failure.ofConnect (openEngine settings)
    let outcome ← ExceptT.adapt Failure.ofOrchestration
      (Attempt.regenerateReport (orchestration settings rounds) request)
    return reportText outcome
  | run request => do
    ExceptT.adapt Failure.ofConnect (openEngine settings)
    let outcome ← ExceptT.adapt Failure.ofOrchestration
      (Attempt.executeTestCases (orchestration settings rounds) request)
    return outcome.summary

end Command

end GuardedRun.Cli
