import GuardedRun.Orchestration.Execution

/-!
Regenerating the overview report of a configuration. Where a test set is named, all active items
hold it for the length of the call; no test set is made, so none is deleted.
-/

namespace GuardedRun

structure ReportRequest where
  project : Path
  configuration : ConfigName
  testSet : Option TestSetName
  dataDir : Option Path
  reportDir : Option Path
  deriving DecidableEq, Repr

namespace Attempt

variable {σ : Type}

open MonadSession

/-- The named test set and the items that will hold it. -/
def planReport (project : Project) (configuration : Configuration) :
    Option TestSetName → Attempt σ OrchestrationError (Option (TestSet × List Item))
  | none => return none
  | some name => do
    let testSet ← requireTestSet project name
    let items ← atStage .resolve (activeItemsOf configuration)
    return some (testSet, items)

end Attempt

namespace Guarded

variable {σ : Type}

open MonadSession

def runReport (ctx : Orchestration) (request : ReportRequest)
    (assignment : Option (TestSet × List Item)) : Guarded σ OrchestrationError Unit := do
  atStage .mutate (Guard.redirectDirectories request.dataDir request.reportDir)
  if let some (testSet, items) := assignment then assignAll testSet items
  checkInterrupt "report.interrupted" "interrupted before report regeneration was triggered"
  let guard ← get
  let execution ← atStage .trigger (ask (.regenerateReport guard.configuration))
  info "report.triggered"
    s!"overview report regeneration of `{guard.configuration.name}` started"
  (Attempt.waitForCompletion execution ctx.polling ctx.rounds).guarded

end Guarded

namespace Attempt

variable {σ : Type}

open MonadSession

/-- Regenerates the report and puts the configuration back the way it was found. -/
def regenerateReport (ctx : Orchestration) (request : ReportRequest) :
    Attempt σ OrchestrationError Outcome := do
  let project ← ensureProjectOpen request.project
  let configuration ← requireConfiguration project request.configuration
  let assignment ← planReport project configuration request.testSet
  let guard ← atStage .resolve (Guard.start project configuration)
  let concluded ← liftSession <|
    (Guarded.runReport ctx request assignment).conclude guard fun guard =>
      { configuration := request.configuration, temporary := [],
        reassigned := guard.reassigned, deactivated := [] }
  match concluded with
  | .ok outcome =>
    info "report.done" s!"overview report of `{request.configuration}` regenerated"
    return outcome
  | .error e =>
    error "report.failed" e.message
    throw e

end Attempt

end GuardedRun
