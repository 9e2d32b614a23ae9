import GuardedRun.Engine.ScenarioTree
import GuardedRun.Engine.Error

/-!
The calls that the engine understands: what each one is named, what it sends and what it answers.
-/

namespace GuardedRun

inductive Call
  /-- The lookup of the engine under its binding. -/
  | ping
  | openProjects
  | openProject (path : Path)
  | closeProject (project : Project)
  | configurations (project : Project)
  | testSets (project : Project)
  | scenarioTree (project : Project)
  | createTestSet (project : Project) (name : TestSetName)
  | deleteTestSet (project : Project) (testSet : TestSet)
  | scenarios (testSet : TestSet)
  | addScenarios (testSet : TestSet) (scenarios : List Scenario)
  | items (configuration : Configuration)
  | dataDir (configuration : Configuration)
  | setDataDir (configuration : Configuration) (path : Path)
  | reportDir (configuration : Configuration)
  | setReportDir (configuration : Configuration) (path : Path)
  | itemActive (item : Item)
  | setItemActive (item : Item) (active : Bool)
  | itemTestSet (item : Item)
  | setItemTestSet (item : Item) (testSet : Option TestSet)
  | run (configuration : Configuration)
  | regenerateReport (configuration : Configuration)
  | progress (execution : Execution)
  | cancel (execution : Execution)
  deriving DecidableEq, Repr

namespace Call

/-- What a successful call answers. -/
@[reducible] def Reply : Call → Type
  | ping => Unit
  | openProjects => List Project
  | openProject _ => Project
  | closeProject _ => Unit
  | configurations _ => List Configuration
  | testSets _ => List TestSet
  | scenarioTree _ => List ScenarioNode
  | createTestSet _ _ => TestSet
  | deleteTestSet _ _ => Unit
  | scenarios _ => List Scenario
  | addScenarios _ _ => Unit
  | items _ => List Item
  | dataDir _ => Path
  | setDataDir _ _ => Unit
  | reportDir _ => Path
  | setReportDir _ _ => Unit
  | itemActive _ => Bool
  | setItemActive _ _ => Unit
  | itemTestSet _ => Option TestSet
  | setItemTestSet _ _ => Unit
  | run _ => Execution
  | regenerateReport _ => Execution
  | progress _ => Progress
  | cancel _ => Unit

/-- The name of the call on the wire, in errors and in the engine's path. -/
def method : Call → String
  | ping => "ping"
  | openProjects => "project/list"
  | openProject _ => "project/open"
  | closeProject _ => "project/close"
  | configurations _ => "project/execution-configs"
  | testSets _ => "project/test-sets"
  | scenarioTree _ => "project/scenario-tree"
  | createTestSet _ _ => "project/create-test-set"
  | deleteTestSet _ _ => "project/delete-test-set"
  | scenarios _ => "test-set/scenarios"
  | addScenarios _ _ => "test-set/add-scenarios"
  | items _ => "config/items"
  | dataDir _ => "config/data-dir"
  | setDataDir _ _ => "config/set-data-dir"
  | reportDir _ => "config/report-dir"
  | setReportDir _ _ => "config/set-report-dir"
  | itemActive _ => "item/active"
  | setItemActive _ _ => "item/set-active"
  | itemTestSet _ => "item/test-set"
  | setItemTestSet _ _ => "item/set-test-set"
  | run _ => "api/run"
  | regenerateReport _ => "api/regenerate-overview-report"
  | progress _ => "status/get"
  | cancel _ => "status/cancel"

/-- What a call sends along: objects by their ids, nothing else of them. -/
def body : Call → Json
  | ping => .obj []
  | openProjects => .obj []
  | openProject path => .obj [("path", .str path.text)]
  | closeProject project => .obj [("project", project.id.toJson)]
  | configurations project => .obj [("project", project.id.toJson)]
  | testSets project => .obj [("project", project.id.toJson)]
  | scenarioTree project => .obj [("project", project.id.toJson)]
  | createTestSet project name => .obj [("name", .str name.text), ("project", project.id.toJson)]
  | deleteTestSet project testSet =>
    .obj [("project", project.id.toJson), ("test_set", testSet.id.toJson)]
  | scenarios testSet => .obj [("test_set", testSet.id.toJson)]
  | addScenarios testSet chosen =>
    .obj [("scenarios", .arr (chosen.map (·.id.toJson))), ("test_set", testSet.id.toJson)]
  | items configuration => .obj [("config", configuration.id.toJson)]
  | dataDir configuration => .obj [("config", configuration.id.toJson)]
  | setDataDir configuration path =>
    .obj [("config", configuration.id.toJson), ("path", .str path.text)]
  | reportDir configuration => .obj [("config", configuration.id.toJson)]
  | setReportDir configuration path =>
    .obj [("config", configuration.id.toJson), ("path", .str path.text)]
  | itemActive item => .obj [("item", item.id.toJson)]
  | setItemActive item active => .obj [("active", .bool active), ("item", item.id.toJson)]
  | itemTestSet item => .obj [("item", item.id.toJson)]
  | setItemTestSet item testSet =>
    .obj [("item", item.id.toJson), ("test_set", Json.ofOption (·.id.toJson) testSet)]
  | run configuration => .obj [("config", configuration.id.toJson)]
  | regenerateReport configuration => .obj [("config", configuration.id.toJson)]
  | progress execution => .obj [("status", execution.id.toJson)]
  | cancel execution => .obj [("status", execution.id.toJson)]

/-- Reads the data of a successful answer. -/
def decodeReply : (call : Call) → Wire.Decoder call.Reply
  | ping => Wire.nothing
  | openProjects => Wire.list Wire.project
  | openProject _ => Wire.project
  | closeProject _ => Wire.nothing
  | configurations _ => Wire.list Wire.configuration
  | testSets _ => Wire.list Wire.testSet
  | scenarioTree _ => Wire.scenarioTree
  | createTestSet _ _ => Wire.testSet
  | deleteTestSet _ _ => Wire.nothing
  | scenarios _ => Wire.list Wire.scenario
  | addScenarios _ _ => Wire.nothing
  | items _ => Wire.list Wire.item
  | dataDir _ => Wire.path
  | setDataDir _ _ => Wire.nothing
  | reportDir _ => Wire.path
  | setReportDir _ _ => Wire.nothing
  | itemActive _ => Wire.flag
  | setItemActive _ _ => Wire.nothing
  | itemTestSet _ => Wire.optional Wire.testSet
  | setItemTestSet _ _ => Wire.nothing
  | run _ => Wire.execution
  | regenerateReport _ => Wire.execution
  | progress _ => Wire.progress
  | cancel _ => Wire.nothing

/-- The wire form of a successful answer, which the reading of the data undoes. -/
def replyToJson : (call : Call) → call.Reply → Json
  | ping, _ => .null
  | openProjects, ps => .arr (ps.map Project.toJson)
  | openProject _, p => p.toJson
  | closeProject _, _ => .null
  | configurations _, cs => .arr (cs.map Configuration.toJson)
  | testSets _, ss => .arr (ss.map TestSet.toJson)
  | scenarioTree _, ns => .arr (ScenarioNode.forestToJson ns)
  | createTestSet _ _, s => s.toJson
  | deleteTestSet _ _, _ => .null
  | scenarios _, ss => .arr (ss.map Scenario.toJson)
  | addScenarios _ _, _ => .null
  | items _, is => .arr (is.map Item.toJson)
  | dataDir _, p => .str p.text
  | setDataDir _ _, _ => .null
  | reportDir _, p => .str p.text
  | setReportDir _ _, _ => .null
  | itemActive _, b => .bool b
  | setItemActive _ _, _ => .null
  | itemTestSet _, s => Json.ofOption TestSet.toJson s
  | setItemTestSet _ _, _ => .null
  | run _, e => e.toJson
  | regenerateReport _, e => e.toJson
  | progress _, p => p.toJson
  | cancel _, _ => .null

/-- The calls that start work in the engine. -/
def isTrigger : Call → Bool
  | run _ | regenerateReport _ => true
  | _ => false

/-- The calls that change a configuration or the test sets of a project. -/
def isMutation : Call → Bool
  | createTestSet _ _ | deleteTestSet _ _ | addScenarios _ _ | setDataDir _ _ | setReportDir _ _
  | setItemActive _ _ | setItemTestSet _ _ => true
  | _ => false

end Call

end GuardedRun
