import GuardedRun.Engine.Handle

/-!
The scenario tree of a project: groups of any depth with scenarios as leaves. On the wire a node
says its kind, either in a member of that name or as the first item of an array.
-/

namespace GuardedRun

inductive ScenarioNode
  | scenario (scenario : Scenario)
  | group (name : String) (children : List ScenarioNode)
  deriving Repr

namespace ScenarioNode

mutual

/-- The scenarios of a node from left to right. -/
def leaves : ScenarioNode → List Scenario
  | .scenario s => [s]
  | .group _ children => forestLeaves children

def forestLeaves : List ScenarioNode → List Scenario
  | [] => []
  | node :: rest => leaves node ++ forestLeaves rest

end

mutual

def toJson : ScenarioNode → Json
  | .scenario s =>
    .obj [("id", s.id.toJson), ("kind", .str "scenario"), ("name", .str s.name.text)]
  | .group name children =>
    .obj [("children", .arr (forestToJson children)), ("kind", .str "group"), ("name", .str name)]

def forestToJson : List ScenarioNode → List Json
  | [] => []
  | node :: rest => toJson node :: forestToJson rest

end

/-- The node inside the given number of groups of one name, each around the next. -/
def nest (name : String) : Nat → ScenarioNode → ScenarioNode
  | 0, node => node
  | depth + 1, node => .group name [nest name depth node]

theorem forestLeaves_append (a b : List ScenarioNode) :
    forestLeaves (a ++ b) = forestLeaves a ++ forestLeaves b := by
  induction a with
  | nil => rfl
  | cons node a ih => simp [forestLeaves, ih]

/-- Grouping does not change which scenarios there are, nor their order. -/
theorem leaves_nest (name : String) (depth : Nat) (node : ScenarioNode) :
    (nest name depth node).leaves = node.leaves := by
  induction depth with
  | zero => rfl
  | succ depth ih => simp [nest, leaves, forestLeaves, ih]

end ScenarioNode

namespace Wire

inductive NodeKind
  | scenario
  | group
  deriving DecidableEq, Repr

/-- The kind that a value says. Inside a group the kinds may be given by their numbers too. -/
def nodeKind (nested : Bool) : Decoder NodeKind
  | .str "scenario" => .ok .scenario
  | .str "group" => .ok .group
  | .int 0 => if nested then .ok .scenario else .error (.malformed "a kind of node")
  | .int 1 => if nested then .ok .group else .error (.malformed "a kind of node")
  | _ => .error (.malformed "a kind of node")

mutual

/-- Reads a node; `nested` says that a group stands around it. -/
def node (nested : Bool) : Decoder ScenarioNode
  | .obj members =>
    match Json.lookup "kind" members with
    | none => .error (.malformed "a field kind")
    | some kind => do
      match ← nodeKind nested kind with
      | .scenario => (scenario (.obj members)).map .scenario
      | .group =>
        -- children come before the name, and so does their fault
        let children ← match _h : Json.lookup "children" members with
          | none => pure []
          | some (.arr items) => forest true items
          | some _ => throw (.malformed "an array")
        match Json.lookup "name" members with
        | none => throw (.malformed "a field name")
        | some name => return .group (← text name) children
  | .arr (kind :: fields) => do
    match ← nodeKind nested kind with
    | .scenario => (scenario (.arr fields)).map .scenario
    | .group =>
      match fields with
      | [] => throw (.malformed "a field name")
      | [name] => return .group (← text name) []
      | name :: .arr items :: surplus =>
        let name ← text name
        let children ← forest true items
        if surplus.isEmpty then return .group name children
        else throw (.malformed "two fields")
      | _ => throw (.malformed "an array")
  | _ => .error (.malformed "a node")
termination_by j => sizeOf j
decreasing_by
  · have := Json.sizeOf_lt_of_lookup _h
    simp only [Json.arr.sizeOf_spec, Json.obj.sizeOf_spec] at *
    omega
  · simp only [Json.arr.sizeOf_spec, List.cons.sizeOf_spec]
    omega

def forest (nested : Bool) : List Json → Except Fault (List ScenarioNode)
  | [] => .ok []
  | j :: rest => do
    let first ← node nested j
    let others ← forest nested rest
    return first :: others
termination_by items => sizeOf items

end

def scenarioTree : Decoder (List ScenarioNode)
  | .arr items => forest false items
  | _ => .error (.malformed "an array")

end Wire

end GuardedRun
