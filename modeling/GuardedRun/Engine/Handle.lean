import GuardedRun.Path
import GuardedRun.Wire.Decoder

/-!
Handles into the engine's objects, with their wire form. The engine owns the objects; a handle is
good for the length of one call of the orchestrator.
-/

namespace GuardedRun

/-- An identifier that the engine hands out for one of its objects. -/
structure ObjectId where
  text : String
  deriving DecidableEq, Repr

structure Project where
  id : ObjectId
  path : Path
  deriving DecidableEq, Repr

structure Configuration where
  id : ObjectId
  name : ConfigName
  deriving DecidableEq, Repr

/-- An item of a configuration, with its place in it counted from zero. -/
structure Item where
  id : ObjectId
  position : Nat
  deriving DecidableEq, Repr

structure TestSet where
  id : ObjectId
  name : TestSetName
  deriving DecidableEq, Repr

structure Scenario where
  id : ObjectId
  name : ScenarioName
  deriving DecidableEq, Repr

/-- A run that the engine was told to start. -/
structure Execution where
  id : ObjectId
  deriving DecidableEq, Repr

/-- What the engine says about an execution. -/
structure Progress where
  running : Bool
  pending : Bool
  deriving DecidableEq, Repr

/-- A pending execution counts as one in progress. -/
def Progress.inProgress (p : Progress) : Bool := p.running || p.pending

/-- An item is called by its number as a user counts. -/
def Item.describe (item : Item) : String := "item #" ++ toString (item.position + 1)

/-- Scenario names in their order, for messages. -/
def Scenario.describe (scenarios : List Scenario) : String :=
  ", ".intercalate (scenarios.map (·.name.text))

namespace Wire

def objectId : Decoder ObjectId := fun j => (text j).map ObjectId.mk

def path : Decoder Path := fun j => (text j).map Path.mk

def idField : Field ObjectId := { key := "id", decode := objectId }

def nameField (kind : NameKind) : Field (Name kind) := { key := "name", decode := name kind }

def project : Decoder Project := fun j =>
  (record₂ idField { key := "path", decode := path } j).map fun (id, path) => { id, path }

def configuration : Decoder Configuration := fun j =>
  (record₂ idField (nameField .configuration) j).map fun (id, name) => { id, name }

def item : Decoder Item := fun j =>
  (record₂ idField { key := "position", decode := natural } j).map fun (id, position) =>
    { id, position }

def testSet : Decoder TestSet := fun j =>
  (record₂ idField (nameField .testSet) j).map fun (id, name) => { id, name }

def scenario : Decoder Scenario := fun j =>
  (record₂ idField (nameField .scenario) j).map fun (id, name) => { id, name }

def execution : Decoder Execution := fun j => (record₁ idField j).map fun id => { id }

def progress : Decoder Progress := fun j =>
  (record₂ { key := "running", decode := flag, default? := some false }
    { key := "pending", decode := flag, default? := some false } j).map fun (running, pending) =>
      { running, pending }

end Wire

def ObjectId.toJson (id : ObjectId) : Json := .str id.text

def Project.toJson (p : Project) : Json := .obj [("id", p.id.toJson), ("path", .str p.path.text)]

def Configuration.toJson (c : Configuration) : Json :=
  .obj [("id", c.id.toJson), ("name", .str c.name.text)]

def Item.toJson (i : Item) : Json := .obj [("id", i.id.toJson), ("position", .nat i.position)]

def TestSet.toJson (s : TestSet) : Json := .obj [("id", s.id.toJson), ("name", .str s.name.text)]

def Scenario.toJson (s : Scenario) : Json := .obj [("id", s.id.toJson), ("name", .str s.name.text)]

def Execution.toJson (e : Execution) : Json := .obj [("id", e.id.toJson)]

def Progress.toJson (p : Progress) : Json :=
  .obj [("pending", .bool p.pending), ("running", .bool p.running)]

end GuardedRun
