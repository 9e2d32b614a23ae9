import GuardedRun.NameSet
import GuardedRun.Orchestration.Error
import GuardedRun.Orchestration.Intersection

/-!
Finding things in the engine: projects by path, configurations and test sets by name, scenarios by
name anywhere in a project's tree. Where several fit, the first one is taken.
-/

namespace GuardedRun

namespace ScenarioNode

mutual

/-- Adds to the scenarios found so far those of a node that are asked for by a name under which
none was found yet. -/
def collect (names : NameSet .scenario) (found : List Scenario) : ScenarioNode → List Scenario
  | .scenario s =>
    if s.name ∈ names ∧ ¬ Scenario.isNamedIn found s.name then found ++ [s] else found
  | .group _ children => collectForest names found children

def collectForest (names : NameSet .scenario) (found : List Scenario) :
    List ScenarioNode → List Scenario
  | [] => found
  | node :: rest => collectForest names (collect names found node) rest

end

end ScenarioNode

/-- The scenarios of a forest with the given names, in the order of a walk that goes into every
group where it stands; of several with one name the first. -/
def findScenarios (forest : List ScenarioNode) (names : NameSet .scenario) : List Scenario :=
  ScenarioNode.collectForest names [] forest

/-- The names under which nothing was found. -/
def missingNames (requested : NameSet .scenario) (found : List Scenario) : List String :=
  (requested.names.filter fun name => ¬ Scenario.isNamedIn found name).map (·.text)

/-- The first project that is open under a path. -/
def findProject (path : Path) (projects : List Project) : Option Project :=
  projects.find? fun p => p.path.same path

namespace Attempt

variable {σ : Type}

open MonadSession

def findConfiguration (project : Project) (name : ConfigName) :
    Attempt σ EngineError (Option Configuration) := do
  let configurations ← ask (.configurations project)
  return configurations.find? (·.name = name)

def findTestSet (project : Project) (name : TestSetName) :
    Attempt σ EngineError (Option TestSet) := do
  let testSets ← ask (.testSets project)
  return testSets.find? (·.name = name)

def requireConfiguration (project : Project) (name : ConfigName) :
    Attempt σ OrchestrationError Configuration := do
  match ← atStage .resolve (findConfiguration project name) with
  | some configuration =>
    info "config.resolved" s!"using execution configuration `{name}`"
    return configuration
  | none =>
    error "config.not_found" s!"execution configuration `{name}` not found in project"
    throw (.configNotFound name.text)

def requireTestSet (project : Project) (name : TestSetName) :
    Attempt σ OrchestrationError TestSet := do
  match ← atStage .resolve (findTestSet project name) with
  | some testSet => return testSet
  | none =>
    error "test_set.not_found" s!"test set `{name}` not found in project"
    throw (.testSetNotFound name.text)

/-- Ends with the failure to open a project, and copies the engine's own lines into the log. -/
def failOpening {α : Type} (path : Path) (e : EngineError) : Attempt σ OrchestrationError α := do
  error "project.open_failed" s!"failed to open project {path}: {e.message}"
  e.remoteLog.forM fun line => error "project.open_failed.log" line
  throw (.projectOpenFailed path.text e.message e.remoteLog)

/-- Takes the project from those that the engine has open, or has it opened. -/
def ensureProjectOpen (path : Path) : Attempt σ OrchestrationError Project := do
  match ← attempt .openProjects with
  | .error e => failOpening path e
  | .ok projects =>
    match findProject path projects with
    | some project =>
      info "project.reused" s!"project {path} is already open"
      return project
    | none =>
      match ← attempt (.openProject path) with
      | .error e => failOpening path e
      | .ok project =>
        info "project.opened" s!"opened project {path}"
        return project

/-- Closes the project of a path and says whether there was one to close. -/
def closeProject (path : Path) : Attempt σ EngineError Bool := do
  let projects ← ask .openProjects
  match findProject path projects with
  | none =>
    info "project.close.not_open" s!"project {path} is not open; nothing to close"
    return false
  | some project =>
    ask (.closeProject project)
    info "project.closed" s!"closed project {path}"
    return true

end Attempt

end GuardedRun
