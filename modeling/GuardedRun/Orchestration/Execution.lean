import GuardedRun.Orchestration.Outcome
import GuardedRun.Orchestration.Plan
import GuardedRun.Orchestration.TemporaryNames

/-!
Running test cases of a configuration. The configuration is planned for, changed, run, waited for
and put back.
-/

namespace GuardedRun

/-- The test cases to run, of one configuration of a project, and where data and reports go. With
a test set named, every active item runs the requested test cases of that set. -/
structure ExecutionRequest where
  project : Path
  configuration : ConfigName
  testCases : NameSet .scenario
  testSet : Option TestSetName
  dataDir : Path
  reportDir : Path
  deriving DecidableEq, Repr

namespace Attempt

variable {σ : Type}

open MonadSession

/-- The names that are left for temporary test sets of a project. -/
def temporaryNames (project : Project) (pattern : String) :
    Attempt σ OrchestrationError TemporaryNames := do
  let testSets ← atStage .resolve (ask (.testSets project))
  return .of pattern (testSets.map (·.name.text))

def planExecution (project : Project) (configuration : Configuration)
    (request : ExecutionRequest) : Attempt σ OrchestrationError Plan := do
  let requested ← resolveRequested project request.testCases
  match request.testSet with
  | none => planPerItem configuration request.testCases requested
  | some name => planShared project configuration name request.testCases requested

end Attempt

namespace Guarded

variable {σ : Type}

open MonadSession

/-- The next name for a temporary test set. -/
def drawName (names : TemporaryNames) :
    Guarded σ OrchestrationError (TestSetName × TemporaryNames) :=
  match names.draw with
  | (.ok name, names) => return (name, names)
  | (.error fault, _) => throw (.invalidRequest (fault.message NameKind.testSet.label))

def applyActions (names : TemporaryNames) : List ItemAction → Guarded σ OrchestrationError Unit
  | [] => return ()
  | .deactivate item :: rest => do
    atStage .mutate (Guard.deactivate item)
    applyActions names rest
  | .filter item scenarios :: rest => do
    let (name, names) ← drawName names
    let testSet ← atStage .mutate (Guard.createTemporary name scenarios)
    atStage .mutate (Guard.assign item testSet)
    applyActions names rest

def assignAll (testSet : TestSet) : List Item → Guarded σ OrchestrationError Unit
  | [] => return ()
  | item :: rest => do
    atStage .mutate (Guard.assign item testSet)
    assignAll testSet rest

/-- Changes the configuration as planned. -/
def applyPlan (names : TemporaryNames) : Plan → Guarded σ OrchestrationError Unit
  | .unfiltered =>
    info "plan.unfiltered" "no test cases requested; running the configuration unfiltered"
  | .perItem actions => applyActions names actions
  | .shared scenarios items => do
    let (name, _) ← drawName names
    let testSet ← atStage .mutate (Guard.createTemporary name scenarios)
    if items.isEmpty then warn "plan.no_active_items" "configuration has no active items"
    assignAll testSet items

/-- Stops before work is started in the engine if an interrupt has come in. -/
def checkInterrupt (event message : String) : Guarded σ OrchestrationError Unit := do
  if ← liftSession Session.isInterrupted then
    warn event message
    throw .interrupted

def runExecution (ctx : Orchestration) (request : ExecutionRequest) (plan : Plan)
    (names : TemporaryNames) : Guarded σ OrchestrationError Unit := do
  atStage .mutate (Guard.redirectDirectories (some request.dataDir) (some request.reportDir))
  applyPlan names plan
  checkInterrupt "execution.interrupted" "interrupted before the run was triggered"
  let guard ← get
  let execution ← atStage .trigger (ask (.run guard.configuration))
  info "execution.triggered" s!"execution of `{guard.configuration.name}` started"
  (Attempt.waitForCompletion execution ctx.polling ctx.rounds).guarded

end Guarded

namespace Attempt

variable {σ : Type}

open MonadSession

/-- Runs the requested test cases and puts the configuration back the way it was found. -/
def executeTestCases (ctx : Orchestration) (request : ExecutionRequest) :
    Attempt σ OrchestrationError Outcome := do
  let project ← ensureProjectOpen request.project
  let configuration ← requireConfiguration project request.configuration
  let plan ← planExecution project configuration request
  let names ← temporaryNames project ctx.tempPattern
  let guard ← atStage .resolve (Guard.start project configuration)
  let concluded ← liftSession <|
    (Guarded.runExecution ctx request plan names).conclude guard fun guard =>
      { configuration := request.configuration, temporary := guard.temporaryNames,
        reassigned := guard.reassigned, deactivated := guard.deactivated }
  match concluded with
  | .ok outcome =>
    info "execution.done" outcome.summary
    return outcome
  | .error e =>
    error "execution.failed" e.message
    throw e

end Attempt

end GuardedRun
