import GuardedRun.Engine.Demand

/-!
The objects that a rehearsal engine keeps. Names are kept as they were given: whether a name is one
shows when somebody reads the engine's answer.
-/

namespace GuardedRun.Rehearsal

structure StoredScenario where
  id : String
  name : String
  deriving DecidableEq, Repr

inductive StoredNode
  | scenario (scenario : StoredScenario)
  | group (name : String) (children : List StoredNode)
  deriving Repr

structure StoredItem where
  id : String
  active : Bool
  testSet : Option String
  position : Nat
  deriving DecidableEq, Repr

structure StoredConfiguration where
  id : String
  name : String
  dataDir : String
  reportDir : String
  items : List StoredItem
  deriving DecidableEq, Repr

structure StoredTestSet where
  id : String
  name : String
  scenarios : List StoredScenario
  deriving DecidableEq, Repr

structure StoredProject where
  id : String
  path : String
  deriving DecidableEq, Repr

/-- What a rehearsal engine knows and keeps. -/
structure Store where
  knownProjects : List String := []
  openProjects : List StoredProject := []
  configurations : List StoredConfiguration := []
  testSets : List StoredTestSet := []
  tree : List StoredNode := []
  /-- How many ids were made. -/
  made : Nat := 0
  cancelled : Nat := 0
  deriving Repr

/-- Why a store refuses a demand. -/
inductive Rejection
  | unknownProject
  | duplicateName
  | unknownScenario
  | unknownConfiguration
  | unknownItem
  | unknownTestSet
  deriving DecidableEq, Repr

def Rejection.message : Rejection → String
  | unknownProject => "no such project"
  | duplicateName => "duplicate name"
  | unknownScenario => "unknown scenario"
  | unknownConfiguration => "unknown configuration"
  | unknownItem => "unknown item"
  | unknownTestSet => "unknown test set"

namespace StoredNode

mutual

def scenarios : StoredNode → List StoredScenario
  | .scenario s => [s]
  | .group _ children => forestScenarios children

def forestScenarios : List StoredNode → List StoredScenario
  | [] => []
  | node :: rest => scenarios node ++ forestScenarios rest

end

mutual

def toJson : StoredNode → Json
  | .scenario s => .obj [("id", .str s.id), ("kind", .str "scenario"), ("name", .str s.name)]
  | .group name children =>
    .obj [("children", .arr (forestToJson children)), ("kind", .str "group"), ("name", .str name)]

def forestToJson : List StoredNode → List Json
  | [] => []
  | node :: rest => toJson node :: forestToJson rest

end

end StoredNode

def handle (id name : String) : Json := .obj [("id", .str id), ("name", .str name)]

def StoredScenario.toJson (s : StoredScenario) : Json := handle s.id s.name

def StoredTestSet.toJson (s : StoredTestSet) : Json := handle s.id s.name

def StoredProject.toJson (p : StoredProject) : Json :=
  .obj [("id", .str p.id), ("path", .str p.path)]

def StoredItem.toJson (i : StoredItem) : Json :=
  .obj [("id", .str i.id), ("position", .nat i.position)]

/-- Changes the first entry that meets a condition. -/
def updateFirst {α : Type} (p : α → Bool) (f : α → α) : List α → List α
  | [] => []
  | a :: rest => if p a then f a :: rest else a :: updateFirst p f rest

namespace Store

abbrev Answer := Except Rejection (Json × Store)

def testSet? (id : String) (s : Store) : Option StoredTestSet := s.testSets.find? (·.id = id)

def configuration? (id : String) (s : Store) : Option StoredConfiguration :=
  s.configurations.find? (·.id = id)

/-- The first item of an id over all configurations. -/
def item? (id : String) (s : Store) : Option StoredItem :=
  (s.configurations.flatMap (·.items)).find? (·.id = id)

/-- A scenario of an id, from the test sets in their order and then from the tree. -/
def scenario? (id : String) (s : Store) : Option StoredScenario :=
  (s.testSets.flatMap (·.scenarios) ++ StoredNode.forestScenarios s.tree).find? (·.id = id)

def scenarios? (s : Store) : List String → Option (List StoredScenario)
  | [] => some []
  | id :: rest => do
    let first ← s.scenario? id
    let others ← s.scenarios? rest
    return first :: others

/-- A new id, and the store that has made it. -/
def newId (stem : String) (s : Store) : String × Store :=
  (s!"{stem}-{s.made + 1}", { s with made := s.made + 1 })

def withConfiguration (id : String) (f : StoredConfiguration → StoredConfiguration) (s : Store) :
    Answer :=
  match s.configuration? id with
  | none => .error .unknownConfiguration
  | some _ =>
    .ok (.null, { s with configurations := updateFirst (·.id = id) f s.configurations })

def withItem (id : String) (f : StoredItem → StoredItem) (s : Store) : Answer :=
  match s.item? id with
  | none => .error .unknownItem
  | some _ =>
    .ok (.null, { s with
      configurations := updateFirst (fun c => c.items.any (·.id = id))
        (fun c => { c with items := updateFirst (·.id = id) f c.items }) s.configurations })

def readConfiguration (id : String) (read : StoredConfiguration → Json) (s : Store) : Answer :=
  match s.configuration? id with
  | none => .error .unknownConfiguration
  | some c => .ok (read c, s)

def readItem (id : String) (read : StoredItem → Json) (s : Store) : Answer :=
  match s.item? id with
  | none => .error .unknownItem
  | some i => .ok (read i, s)

def startExecution (s : Store) : Answer :=
  let (id, s) := s.newId "status"
  .ok (.obj [("id", .str id)], s)

/-- What the store answers to a demand and becomes by it. The progress of executions is not the
store's affair. -/
def answer (ignoreNullTestSet : Bool) : Demand → Store → Answer
  | .ping, s => .ok (.null, s)
  | .openProjects, s => .ok (.arr (s.openProjects.map StoredProject.toJson), s)
  | .openProject path, s =>
    if path ∈ s.knownProjects then
      let (id, s) := s.newId "proj"
      let project : StoredProject := { id, path }
      .ok (project.toJson, { s with openProjects := s.openProjects ++ [project] })
    else .error .unknownProject
  | .closeProject id, s =>
    .ok (.null, { s with openProjects := s.openProjects.filter (·.id ≠ id) })
  | .configurations _, s => .ok (.arr (s.configurations.map fun c => handle c.id c.name), s)
  | .testSets _, s => .ok (.arr (s.testSets.map StoredTestSet.toJson), s)
  | .scenarioTree _, s => .ok (.arr (StoredNode.forestToJson s.tree), s)
  | .createTestSet _ name, s =>
    if s.testSets.any (·.name = name) then .error .duplicateName
    else
      let (id, s) := s.newId "ts-tmp"
      let testSet : StoredTestSet := { id, name, scenarios := [] }
      .ok (testSet.toJson, { s with testSets := s.testSets ++ [testSet] })
  | .deleteTestSet _ id, s => .ok (.null, { s with testSets := s.testSets.filter (·.id ≠ id) })
  | .scenarios id, s =>
    match s.testSet? id with
    | none => .error .unknownTestSet
    | some t => .ok (.arr (t.scenarios.map StoredScenario.toJson), s)
  | .addScenarios id chosen, s =>
    match s.scenarios? chosen, s.testSet? id with
    | none, _ => .error .unknownScenario
    | _, none => .error .unknownTestSet
    | some added, some _ =>
      .ok (.null, { s with
        testSets := updateFirst (·.id = id)
          (fun t => { t with scenarios := t.scenarios ++ added }) s.testSets })
  | .items id, s => s.readConfiguration id fun c => .arr (c.items.map StoredItem.toJson)
  | .dataDir id, s => s.readConfiguration id fun c => .str c.dataDir
  | .setDataDir id path, s => s.withConfiguration id fun c => { c with dataDir := path }
  | .reportDir id, s => s.readConfiguration id fun c => .str c.reportDir
  | .setReportDir id path, s => s.withConfiguration id fun c => { c with reportDir := path }
  | .itemActive id, s => s.readItem id fun i => .bool i.active
  | .setItemActive id active, s => s.withItem id fun i => { i with active }
  | .itemTestSet id, s =>
    s.readItem id fun i => Json.ofOption StoredTestSet.toJson (i.testSet.bind s.testSet?)
  | .setItemTestSet id testSet, s =>
    if testSet.isNone && ignoreNullTestSet then .ok (.null, s)
    else s.withItem id fun i => { i with testSet }
  | .run _, s => s.startExecution
  | .regenerateReport _, s => s.startExecution
  | .progress _, s => .ok (.null, s)
  | .cancel _, s => .ok (.null, { s with cancelled := s.cancelled + 1 })

end Store

end GuardedRun.Rehearsal
