import GuardedRun.Orchestration.Locator

/-!
What a run will do to the configuration. A plan is made from reads alone, so a failure while
planning leaves nothing to restore.
-/

namespace GuardedRun

/-- What happens to one active item. -/
inductive ItemAction
  /-- The item runs these scenarios of its own test set. -/
  | filter (item : Item) (scenarios : List Scenario)
  | deactivate (item : Item)
  deriving DecidableEq, Repr

inductive Plan
  /-- No test cases are asked for; the configuration runs as it is. -/
  | unfiltered
  | perItem (actions : List ItemAction)
  /-- All active items run the same scenarios. -/
  | shared (scenarios : List Scenario) (items : List Item)
  deriving DecidableEq, Repr

namespace Attempt

variable {σ : Type}

open MonadSession

/-- The items of a list that the engine reports active. -/
def activeItems : List Item → Attempt σ EngineError (List Item)
  | [] => return []
  | item :: rest => do
    let active ← ask (.itemActive item)
    let others ← activeItems rest
    return if active then item :: others else others

def activeItemsOf (configuration : Configuration) : Attempt σ EngineError (List Item) := do
  activeItems (← ask (.items configuration))

/-- Looks the requested scenarios up in the project's tree. All of them have to be there. -/
def resolveRequested (project : Project) (testCases : NameSet .scenario) :
    Attempt σ OrchestrationError (List Scenario) := do
  if testCases.isEmpty then return []
  let tree ← atStage .resolve (ask (.scenarioTree project))
  let found := findScenarios tree testCases
  if found.length < testCases.size then
    let missing := missingNames testCases found
    let names := ", ".intercalate missing
    error "scenarios.partial_match"
      s!"found {found.length} of {testCases.size} requested test cases; missing: {names}"
    throw (.partialScenarioMatch testCases.size found.length missing)
  let names := Scenario.describe found
  info "scenarios.resolved" s!"requested test cases: {names}"
  return found

/-- The scenarios of the test set that an item holds. -/
def currentScenarios (item : Item) : Attempt σ EngineError (List Scenario) := do
  match ← ask (.itemTestSet item) with
  | none => return []
  | some testSet => ask (.scenarios testSet)

/-- What to do with an active item: it keeps what is requested of its test set, and an item that
keeps nothing is deactivated. -/
def planItem (item : Item) (requested : List Scenario) : Attempt σ EngineError ItemAction := do
  let kept := Scenario.intersect (← currentScenarios item) requested
  if kept.isEmpty then
    info "plan.deactivate" s!"{item.describe}: no requested test case in its test set"
    return .deactivate item
  else
    let names := Scenario.describe kept
    info "plan.filter" s!"{item.describe}: will run {names}"
    return .filter item kept

def planItems (requested : List Scenario) : List Item → Attempt σ EngineError (List ItemAction)
  | [] => return []
  | item :: rest => do
    if ← ask (.itemActive item) then
      let action ← planItem item requested
      let others ← planItems requested rest
      return action :: others
    else planItems requested rest

def planPerItem (configuration : Configuration) (testCases : NameSet .scenario)
    (requested : List Scenario) : Attempt σ OrchestrationError Plan := do
  if testCases.isEmpty then return .unfiltered
  atStage .resolve do
    let items ← ask (.items configuration)
    return .perItem (← planItems requested items)

/-- The scenarios that a named test set contributes: all of them if none are requested, else the
requested ones, which all have to be in it. -/
def coveredScenarios (name : TestSetName) (inSet : List Scenario) (testCases : NameSet .scenario)
    (requested : List Scenario) : Attempt σ OrchestrationError (List Scenario) := do
  if testCases.isEmpty then return inSet
  let covered := Scenario.intersect inSet requested
  if covered.length < requested.length then
    let missing := missingNames testCases covered
    let names := ", ".intercalate missing
    error "scenarios.partial_match" s!"test set `{name}` lacks requested test cases: {names}"
    throw (.partialScenarioMatch requested.length covered.length missing)
  return covered

def planShared (project : Project) (configuration : Configuration) (name : TestSetName)
    (testCases : NameSet .scenario) (requested : List Scenario) :
    Attempt σ OrchestrationError Plan := do
  let named ← requireTestSet project name
  let inSet ← atStage .resolve (ask (.scenarios named))
  let scenarios ← coveredScenarios name inSet testCases requested
  if scenarios.isEmpty then
    throw (.invalidRequest s!"test set `{name}` contains no test cases to run")
  let items ← atStage .resolve (activeItemsOf configuration)
  let names := Scenario.describe scenarios
  info "plan.shared"
    s!"{items.length} active item(s) will run test set `{name}` restricted to: {names}"
  return .shared scenarios items

end Attempt

end GuardedRun
