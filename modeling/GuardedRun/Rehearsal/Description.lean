import GuardedRun.Json.Member
import GuardedRun.Rehearsal.Engine

/-!
Rehearsal engines in writing: an engine is set up from a JSON description, and what it holds is
written down as JSON.
-/

namespace GuardedRun.Rehearsal

open Json

def StoredScenario.ofJson? (j : Json) : Option StoredScenario := do
  return { id := ← textAt? "id" j, name := ← textAt? "name" j }

namespace StoredNode

mutual

def ofJson? (j : Json) : Option StoredNode := do
  if textAt? "kind" j = some "scenario" then return .scenario (← StoredScenario.ofJson? j)
  else return .group ((textAt? "name" j).getD "") (← forestOfJson? (itemsAt "children" j))
termination_by 2 * sizeOf j + 1
decreasing_by have := sizeOf_itemsAt_le "children" j; omega

def forestOfJson? : List Json → Option (List StoredNode)
  | [] => some []
  | j :: rest => do
    let node ← ofJson? j
    let others ← forestOfJson? rest
    return node :: others
termination_by js => 2 * sizeOf js
decreasing_by all_goals simp only [List.cons.sizeOf_spec]; omega

end

end StoredNode

/-- An item; one without a position stands where it is listed. -/
def StoredItem.ofJson? (index : Nat) (j : Json) : Option StoredItem := do
  return {
    id := ← textAt? "id" j
    active := flagAt "active" j
    testSet := textAt? "test_set" j
    position := (naturalAt? "position" j).getD index }

def StoredConfiguration.ofJson? (j : Json) : Option StoredConfiguration := do
  return {
    id := ← textAt? "id" j
    name := ← textAt? "name" j
    dataDir := ← textAt? "data_dir" j
    reportDir := ← textAt? "report_dir" j
    items := ← (itemsAt "items" j).zipIdx.mapM fun (item, index) =>
      StoredItem.ofJson? index item }

def StoredTestSet.ofJson? (j : Json) : Option StoredTestSet := do
  return {
    id := ← textAt? "id" j
    name := ← textAt? "name" j
    scenarios := ← (itemsAt "scenarios" j).mapM StoredScenario.ofJson? }

def StoredProject.ofJson? (j : Json) : Option StoredProject := do
  return { id := ← textAt? "id" j, path := ← textAt? "path" j }

def Store.ofJson? (j : Json) : Option Store := do
  return {
    knownProjects := textsAt "known_projects" j
    openProjects := ← (itemsAt "open_projects" j).mapM StoredProject.ofJson?
    configurations := ← (itemsAt "configs" j).mapM StoredConfiguration.ofJson?
    testSets := ← (itemsAt "test_sets" j).mapM StoredTestSet.ofJson?
    tree := ← StoredNode.forestOfJson? (itemsAt "tree" j) }

/-- A progress as the pair of its flags. -/
def progressOfJson? : Json → Option Progress
  | .arr [.bool running, .bool pending] => some { running, pending }
  | _ => none

def FaultKind.ofJson? (j : Json) : Option FaultKind := do
  match ← textAt? "kind" j with
  | "Communication" => return .communication (← textAt? "reason" j)
  | "Application" => return .application (← textAt? "message" j) (textsAt "log" j)
  | "Protocol" => return .protocol (← textAt? "reason" j)
  | _ => none

def Fault.ofJson? (j : Json) : Option Fault := do
  return {
    method := ← textAt? "method" j
    skip := (naturalAt? "skip" j).getD 0
    times := naturalAt? "times" j
    kind := ← FaultKind.ofJson? (← member? "error" j) }

def InterruptAt.ofJson? (j : Json) : Option InterruptAt := do
  return { method := ← textAt? "method" j, call := ← naturalAt? "call" j }

def Engine.ofJson? (j : Json) : Option Engine := do
  return {
    store := ← Store.ofJson? j
    progresses := ← (itemsAt "statuses" j).mapM progressOfJson?
    alwaysRunning := flagAt "always_running" j
    ignoreNullTestSet := flagAt "ignore_null_test_set" j
    faults := ← (itemsAt "faults" j).mapM Fault.ofJson?
    interrupts := ← (itemsAt "interrupts" j).mapM InterruptAt.ofJson? }

def StoredItem.describe (i : StoredItem) : Json :=
  .arr [.str i.id, .bool i.active, Json.ofOption .str i.testSet]

def StoredConfiguration.describe (c : StoredConfiguration) : Json :=
  .obj [("id", .str c.id), ("data_dir", .str c.dataDir), ("report_dir", .str c.reportDir),
    ("items", .arr (c.items.map StoredItem.describe))]

def StoredTestSet.describe (t : StoredTestSet) : Json :=
  .arr [.str t.id, .str t.name, Json.strings (t.scenarios.map (·.id))]

namespace Snapshot

def members (s : Snapshot) : List (String × Json) :=
  [("configs", .arr (s.configurations.map StoredConfiguration.describe)),
    ("test_sets", .arr (s.testSets.map StoredTestSet.describe))]

def toJson (s : Snapshot) : Json := .obj s.members

end Snapshot

/-- What the engine holds, without what it was told to do. -/
def Engine.describe (e : Engine) : Json :=
  .obj (e.snapshot.members ++
    [("open", .arr (e.store.openProjects.map fun p => Json.strings [p.id, p.path])),
      ("cancelled", .nat e.store.cancelled)])

/-- A demand as a list that begins with the method. -/
def demandToJson (d : Demand) : Json := .arr (.str d.method :: d.arguments)

end GuardedRun.Rehearsal
