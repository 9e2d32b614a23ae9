import GuardedRun.Engine.Connection

/-!
The ways in which an orchestration ends without success. Those raised before the configuration was
touched leave nothing to clean up.
-/

namespace GuardedRun

/-- The part of an orchestration in which a call failed. -/
inductive Stage
  | resolve
  | mutate
  | trigger
  | poll
  deriving DecidableEq, Repr

def Stage.text : Stage → String
  | resolve => "resolve"
  | mutate => "mutate"
  | trigger => "trigger"
  | poll => "poll"

inductive OrchestrationError
  | connectionUnavailable (reason : String)
  | projectOpenFailed (path reason : String) (log : List String)
  | configNotFound (name : String)
  | testSetNotFound (name : String)
  | partialScenarioMatch (requested found : Nat) (missing : List String)
  | invalidRequest (reason : String)
  | remoteFault (stage : Stage) (source : EngineError)
  | pollDeadlineExceeded (seconds : Nat)
  | interrupted
  /-- The configuration is not as it was found; `cause` tells what had gone wrong before. -/
  | restoreIncomplete (failures : List String) (cause : Option String)
  deriving DecidableEq, Repr

namespace OrchestrationError

def restoreMessage (failures : List String) (cause : Option String) : String :=
  let steps := "; ".intercalate failures
  let message :=
    s!"configuration restore incomplete ({failures.length} failed step(s)): {steps}"
  match cause with
  | none => message
  | some cause => message ++ s!"; run failed first: {cause}"

def message : OrchestrationError → String
  | connectionUnavailable reason => s!"engine connection unavailable: {reason}"
  | projectOpenFailed path reason _ => s!"failed to open project {path}: {reason}"
  | configNotFound name => s!"execution configuration `{name}` not found in project"
  | testSetNotFound name => s!"test set `{name}` not found in project"
  | partialScenarioMatch requested found missing =>
    let names := ", ".intercalate missing
    s!"only {found} of {requested} requested test cases were found; missing: {names}"
  | invalidRequest reason => s!"invalid orchestration request: {reason}"
  | remoteFault stage source =>
    s!"remote engine fault during {stage.text}: {source.message}"
  | pollDeadlineExceeded seconds => s!"execution still running after {seconds}s; cancel requested"
  | interrupted => "orchestration interrupted"
  | restoreIncomplete failures cause => restoreMessage failures cause

/-- The error was raised before the configuration was touched. -/
def isPreMutation : OrchestrationError → Bool
  | connectionUnavailable _ | projectOpenFailed _ _ _ | configNotFound _ | testSetNotFound _
  | partialScenarioMatch _ _ _ | invalidRequest _ => true
  | remoteFault stage _ => stage = .resolve
  | pollDeadlineExceeded _ | interrupted | restoreIncomplete _ _ => false

def isInterrupted : OrchestrationError → Bool
  | interrupted => true
  | _ => false

/-- An interruption while connecting stays one; without a connection nothing else can be done. -/
def ofConnect : ConnectError → OrchestrationError
  | .interrupted => interrupted
  | e => connectionUnavailable e.message

end OrchestrationError

/-- Blames failing calls on a stage. -/
def atStage {m : Type → Type} [Monad m] {α : Type} (stage : Stage) (x : ExceptT EngineError m α) :
    ExceptT OrchestrationError m α :=
  ExceptT.adapt (.remoteFault stage) x

end GuardedRun
