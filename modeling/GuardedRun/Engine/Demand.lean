import GuardedRun.Engine.Http
import GuardedRun.Json.Member

/-!
Calls as the engine sees them: of each object only the id arrives. A demand is read off a request,
and the request that carries a call demands what the call asks for.
-/

namespace GuardedRun

inductive Demand
  | ping
  | openProjects
  | openProject (path : String)
  | closeProject (project : String)
  | configurations (project : String)
  | testSets (project : String)
  | scenarioTree (project : String)
  | createTestSet (project name : String)
  | deleteTestSet (project testSet : String)
  | scenarios (testSet : String)
  | addScenarios (testSet : String) (scenarios : List String)
  | items (configuration : String)
  | dataDir (configuration : String)
  | setDataDir (configuration path : String)
  | reportDir (configuration : String)
  | setReportDir (configuration path : String)
  | itemActive (item : String)
  | setItemActive (item : String) (active : Bool)
  | itemTestSet (item : String)
  | setItemTestSet (item : String) (testSet : Option String)
  | run (configuration : String)
  | regenerateReport (configuration : String)
  | progress (execution : String)
  | cancel (execution : String)
  deriving DecidableEq, Repr

/-- What a call asks of the engine. -/
def Call.demand : Call → Demand
  | .ping => .ping
  | .openProjects => .openProjects
  | .openProject path => .openProject path.text
  | .closeProject project => .closeProject project.id.text
  | .configurations project => .configurations project.id.text
  | .testSets project => .testSets project.id.text
  | .scenarioTree project => .scenarioTree project.id.text
  | .createTestSet project name => .createTestSet project.id.text name.text
  | .deleteTestSet project testSet => .deleteTestSet project.id.text testSet.id.text
  | .scenarios testSet => .scenarios testSet.id.text
  | .addScenarios testSet chosen => .addScenarios testSet.id.text (chosen.map (·.id.text))
  | .items configuration => .items configuration.id.text
  | .dataDir configuration => .dataDir configuration.id.text
  | .setDataDir configuration path => .setDataDir configuration.id.text path.text
  | .reportDir configuration => .reportDir configuration.id.text
  | .setReportDir configuration path => .setReportDir configuration.id.text path.text
  | .itemActive item => .itemActive item.id.text
  | .setItemActive item active => .setItemActive item.id.text active
  | .itemTestSet item => .itemTestSet item.id.text
  | .setItemTestSet item testSet => .setItemTestSet item.id.text (testSet.map (·.id.text))
  | .run configuration => .run configuration.id.text
  | .regenerateReport configuration => .regenerateReport configuration.id.text
  | .progress execution => .progress execution.id.text
  | .cancel execution => .cancel execution.id.text

namespace Demand

def method : Demand → String
  | ping => "ping"
  | openProjects => "project/list"
  | openProject _ => "project/open"
  | closeProject _ => "project/close"
  | configurations _ => "project/execution-configs"
  | testSets _ => "project/test-sets"
  | scenarioTree _ => "project/scenario-tree"
  | createTestSet _ _ => "project/create-test-set"
  | deleteTestSet _ _ => "project/delete-test-set"
  | scenarios _ => "test-set/scenarios"
  | addScenarios _ _ => "test-set/add-scenarios"
  | items _ => "config/items"
  | dataDir _ => "config/data-dir"
  | setDataDir _ _ => "config/set-data-dir"
  | reportDir _ => "config/report-dir"
  | setReportDir _ _ => "config/set-report-dir"
  | itemActive _ => "item/active"
  | setItemActive _ _ => "item/set-active"
  | itemTestSet _ => "item/test-set"
  | setItemTestSet _ _ => "item/set-test-set"
  | run _ => "api/run"
  | regenerateReport _ => "api/regenerate-overview-report"
  | progress _ => "status/get"
  | cancel _ => "status/cancel"

/-- What is demanded, in the order project, configuration, item, execution, path, name, test set,
active, scenarios. -/
def arguments : Demand → List Json
  | ping => []
  | openProjects => []
  | openProject path => [.str path]
  | closeProject project => [.str project]
  | configurations project => [.str project]
  | testSets project => [.str project]
  | scenarioTree project => [.str project]
  | createTestSet project name => [.str project, .str name]
  | deleteTestSet project testSet => [.str project, .str testSet]
  | scenarios testSet => [.str testSet]
  | addScenarios testSet chosen => .str testSet :: chosen.map .str
  | items configuration => [.str configuration]
  | dataDir configuration => [.str configuration]
  | setDataDir configuration path => [.str configuration, .str path]
  | reportDir configuration => [.str configuration]
  | setReportDir configuration path => [.str configuration, .str path]
  | itemActive item => [.str item]
  | setItemActive item active => [.str item, .bool active]
  | itemTestSet item => [.str item]
  | setItemTestSet item testSet => [.str item, Json.ofOption .str testSet]
  | run configuration => [.str configuration]
  | regenerateReport configuration => [.str configuration]
  | progress execution => [.str execution]
  | cancel execution => [.str execution]

open Json (textAt? flagAt? textsAt? optionalTextAt?)

/-- The demand of a method with a body. -/
def ofBody? (method : String) (body : Json) : Option Demand :=
  match method with
  | "ping" => some ping
  | "project/list" => some openProjects
  | "project/open" => return openProject (← textAt? "path" body)
  | "project/close" => return closeProject (← textAt? "project" body)
  | "project/execution-configs" => return configurations (← textAt? "project" body)
  | "project/test-sets" => return testSets (← textAt? "project" body)
  | "project/scenario-tree" => return scenarioTree (← textAt? "project" body)
  | "project/create-test-set" =>
    return createTestSet (← textAt? "project" body) (← textAt? "name" body)
  | "project/delete-test-set" =>
    return deleteTestSet (← textAt? "project" body) (← textAt? "test_set" body)
  | "test-set/scenarios" => return scenarios (← textAt? "test_set" body)
  | "test-set/add-scenarios" =>
    return addScenarios (← textAt? "test_set" body) (← textsAt? "scenarios" body)
  | "config/items" => return items (← textAt? "config" body)
  | "config/data-dir" => return dataDir (← textAt? "config" body)
  | "config/set-data-dir" => return setDataDir (← textAt? "config" body) (← textAt? "path" body)
  | "config/report-dir" => return reportDir (← textAt? "config" body)
  | "config/set-report-dir" =>
    return setReportDir (← textAt? "config" body) (← textAt? "path" body)
  | "item/active" => return itemActive (← textAt? "item" body)
  | "item/set-active" => return setItemActive (← textAt? "item" body) (← flagAt? "active" body)
  | "item/test-set" => return itemTestSet (← textAt? "item" body)
  | "item/set-test-set" =>
    return setItemTestSet (← textAt? "item" body) (← optionalTextAt? "test_set" body)
  | "api/run" => return run (← textAt? "config" body)
  | "api/regenerate-overview-report" => return regenerateReport (← textAt? "config" body)
  | "status/get" => return progress (← textAt? "status" body)
  | "status/cancel" => return cancel (← textAt? "status" body)
  | _ => none

theorem method_demand (call : Call) : call.demand.method = call.method := by
  cases call <;> rfl

/-- A call's body demands what the call asks for. -/
theorem ofBody?_body (call : Call) : ofBody? call.method call.body = some call.demand := by
  cases call with
  | addScenarios testSet chosen =>
    have h := Json.texts?_map (chosen.map (·.id.text))
    rw [List.map_map] at h
    simp only [Function.comp_def] at h
    simp [ofBody?, Call.method, Call.body, Call.demand, textAt?, textsAt?, Json.get?, Json.lookup,
      Json.text?, Json.items?, ObjectId.toJson, h]
  | setItemTestSet item testSet =>
    cases testSet <;>
      simp [ofBody?, Call.method, Call.body, Call.demand, textAt?, optionalTextAt?, Json.get?,
        Json.lookup, Json.text?, ObjectId.toJson, Json.ofOption]
  | _ =>
    simp [ofBody?, Call.method, Call.body, Call.demand, textAt?, flagAt?, Json.get?, Json.lookup,
      Json.text?, Json.flag?, ObjectId.toJson]

end Demand

end GuardedRun
