import GuardedRun.Orchestration.Error
import GuardedRun.Orchestration.Intersection

/-!
The guard of a configuration. Every change to the configuration goes through it; it records what
has to be undone before it touches the engine, with the one exception of a test set, which has no
id before it exists. Restoring puts the configuration back in a fixed order: the test sets of the
items, the directories, the temporary test sets, the active flags. Every step is tried, whatever
became of the ones before.
-/

namespace GuardedRun

/-- What a guard remembers about the configuration it guards. -/
structure Guard where
  project : Project
  configuration : Configuration
  formerDataDir : Path
  formerReportDir : Path
  directoriesChanged : Bool := false
  /-- The test sets that items held when they were first assigned another. -/
  formerTestSets : List (Item × Option TestSet) := []
  temporary : List TestSet := []
  deactivated : List Item := []
  deriving DecidableEq, Repr

/-- A step of restoring that did not do its work. -/
inductive RestoreFailure
  | testSet (item : Item) (cause : EngineError)
  | stillAssigned (item : Item) (testSet : TestSet)
  | unverified (item : Item) (cause : EngineError)
  | dataDir (cause : EngineError)
  | reportDir (cause : EngineError)
  | deletion (testSet : TestSet) (cause : EngineError)
  /-- The item holds a test set that is no longer there. -/
  | dangling (item : Item) (testSet : TestSet)
  | activation (item : Item) (cause : EngineError)
  deriving DecidableEq, Repr

namespace RestoreFailure

/-- The failure as it is reported. -/
def message : RestoreFailure → String
  | testSet item cause => s!"restore test set of {item.describe}: {cause.message}"
  | stillAssigned item set =>
    s!"clear test set of {item.describe}: still assigned `{set.name}` after clearing"
  | unverified item cause => s!"verify cleared test set of {item.describe}: {cause.message}"
  | dataDir cause => s!"reset data directory: {cause.message}"
  | reportDir cause => s!"reset report directory: {cause.message}"
  | deletion set cause =>
    s!"delete temporary test set `{set.name}`: {cause.message}"
  | dangling item set =>
    s!"{item.describe} still references deleted temporary test set `{set.name}`; reassign it by hand"
  | activation item cause => s!"reactivate {item.describe}: {cause.message}"

/-- The log line that goes with the failure. -/
def line (failure : RestoreFailure) : LogLine :=
  match failure with
  | dangling _ _ =>
    { level := .error, event := "restore.dangling_test_set", message := failure.message }
  | stillAssigned _ _ =>
    { level := .error, event := "restore.failed", message := failure.message }
  | _ =>
    { level := .error, event := "restore.failed", message := "failed to " ++ failure.message }

end RestoreFailure

/-- A session under a guard, which remembers what was done even where the work ended early. -/
abbrev Guarded (σ ε : Type) : Type → Type := ExceptT ε (StateT Guard (Session σ))

/-- Work that needs nothing of the guard. -/
def Attempt.guarded {σ ε α : Type} (x : Attempt σ ε α) : Guarded σ ε α :=
  ExceptT.mk (StateT.lift x.run)

namespace Guard

variable {σ : Type}

open MonadSession

/-- Starts guarding a configuration. Nothing is changed yet, so a failure leaves nothing behind. -/
def start (project : Project) (configuration : Configuration) : Attempt σ EngineError Guard := do
  let formerDataDir ← ask (.dataDir configuration)
  let formerReportDir ← ask (.reportDir configuration)
  return { project, configuration, formerDataDir, formerReportDir }

/-- The items that were given another test set. -/
def reassigned (guard : Guard) : List Item := guard.formerTestSets.map (·.1)

def temporaryNames (guard : Guard) : List TestSetName := guard.temporary.map (·.name)

def markDirectories (guard : Guard) : Guard := { guard with directoriesChanged := true }

def rememberTestSet (item : Item) (former : Option TestSet) (guard : Guard) : Guard :=
  { guard with formerTestSets := guard.formerTestSets ++ [(item, former)] }

def rememberTemporary (testSet : TestSet) (guard : Guard) : Guard :=
  { guard with temporary := guard.temporary ++ [testSet] }

def rememberDeactivated (item : Item) (guard : Guard) : Guard :=
  if item ∈ guard.deactivated then guard
  else { guard with deactivated := guard.deactivated ++ [item] }

def redirectData (path : Path) : Guarded σ EngineError Unit := do
  let guard ← get
  ask (.setDataDir guard.configuration path)
  info "mutate.data_dir" s!"data directory changed from {guard.formerDataDir} to {path}"

def redirectReport (path : Path) : Guarded σ EngineError Unit := do
  let guard ← get
  ask (.setReportDir guard.configuration path)
  info "mutate.report_dir" s!"report directory changed from {guard.formerReportDir} to {path}"

/-- Points the configuration at other directories, as far as any are given. -/
def redirectDirectories (dataDir reportDir : Option Path) : Guarded σ EngineError Unit := do
  if dataDir.isNone && reportDir.isNone then return ()
  modify markDirectories
  if let some path := dataDir then redirectData path
  if let some path := reportDir then redirectReport path

/-- Gives an item a test set. Which one it held is read once, before the first assignment. -/
def assign (item : Item) (testSet : TestSet) : Guarded σ EngineError Unit := do
  let guard ← get
  unless item ∈ guard.reassigned do
    let former ← ask (.itemTestSet item)
    -- remembered before the engine is told, so that a lost reply is undone too
    modify (rememberTestSet item former)
  ask (.setItemTestSet item (some testSet))
  info "mutate.assign" s!"{item.describe}: assigned test set `{testSet.name}`"

def deactivate (item : Item) : Guarded σ EngineError Unit := do
  modify (rememberDeactivated item)
  ask (.setItemActive item false)
  info "mutate.deactivate"
    s!"{item.describe}: deactivated, no requested test case in its test set"

/-- Makes a test set of scenarios that restoring deletes. -/
def createTemporary (name : TestSetName) (scenarios : List Scenario) :
    Guarded σ EngineError TestSet := do
  let guard ← get
  let testSet ← ask (.createTestSet guard.project name)
  modify (rememberTemporary testSet)
  ask (.addScenarios testSet scenarios)
  let names := Scenario.describe scenarios
  info "mutate.temp_test_set" s!"created temporary test set `{testSet.name}` with: {names}"
  return testSet

/-- Reports a failed step. -/
def blame (failure : RestoreFailure) : Session σ (List RestoreFailure) := do
  note failure.line
  return [failure]

/-- The failures of clearing an item's test set, and the test set it holds all the same. Clearing
may be ignored by the engine, so the result is read back. -/
def verifyCleared (item : Item) : Session σ (List RestoreFailure × Option TestSet) := do
  match ← attempt (.itemTestSet item) with
  | .ok none =>
    info "restore.assign" s!"{item.describe}: test set cleared"
    return ([], none)
  | .ok (some still) => return (← blame (.stillAssigned item still), some still)
  | .error e => return (← blame (.unverified item e), none)

/-- Gives an item its former test set back. -/
def restoreTestSet (item : Item) (former : Option TestSet) :
    Session σ (List RestoreFailure × Option TestSet) := do
  match ← attempt (.setItemTestSet item former) with
  | .error e => return (← blame (.testSet item e), none)
  | .ok _ =>
    match former with
    | none => verifyCleared item
    | some testSet =>
      info "restore.assign" s!"{item.describe}: test set `{testSet.name}` restored"
      return ([], none)

/-- Gives all items their test sets back; items that hold one nonetheless come with it. -/
def restoreTestSets :
    List (Item × Option TestSet) → Session σ (List RestoreFailure × List (Item × TestSet))
  | [] => return ([], [])
  | (item, former) :: rest => do
    let (failures, still) ← restoreTestSet item former
    let (others, assigned) ← restoreTestSets rest
    return (failures ++ others, (still.toList.map (item, ·)) ++ assigned)

def restoreDataDir (guard : Guard) : Session σ (List RestoreFailure) := do
  match ← attempt (.setDataDir guard.configuration guard.formerDataDir) with
  | .ok _ =>
    info "restore.data_dir" s!"data directory reset to {guard.formerDataDir}"
    return []
  | .error e => blame (.dataDir e)

def restoreReportDir (guard : Guard) : Session σ (List RestoreFailure) := do
  match ← attempt (.setReportDir guard.configuration guard.formerReportDir) with
  | .ok _ =>
    info "restore.report_dir" s!"report directory reset to {guard.formerReportDir}"
    return []
  | .error e => blame (.reportDir e)

def restoreDirectories (guard : Guard) : Session σ (List RestoreFailure) := do
  if guard.directoriesChanged then return (← restoreDataDir guard) ++ (← restoreReportDir guard)
  else return []

/-- Reports the items that hold a test set which was deleted under them. -/
def blameDangling (testSet : TestSet) :
    List (Item × TestSet) → Session σ (List RestoreFailure)
  | [] => return []
  | (item, held) :: rest => do
    let failures ← if held.id = testSet.id then blame (.dangling item testSet) else pure []
    return failures ++ (← blameDangling testSet rest)

def deleteTemporary (project : Project) (assigned : List (Item × TestSet)) :
    List TestSet → Session σ (List RestoreFailure)
  | [] => return []
  | testSet :: rest => do
    let failures ← match ← attempt (.deleteTestSet project testSet) with
      | .ok _ => do
        info "restore.delete_temp_test_set" s!"deleted temporary test set `{testSet.name}`"
        blameDangling testSet assigned
      | .error e => blame (.deletion testSet e)
    return failures ++ (← deleteTemporary project assigned rest)

def reactivate : List Item → Session σ (List RestoreFailure)
  | [] => return []
  | item :: rest => do
    let failures ← match ← attempt (.setItemActive item true) with
      | .ok _ => do
        info "restore.reactivate" s!"{item.describe}: reactivated"
        pure []
      | .error e => blame (.activation item e)
    return failures ++ (← reactivate rest)

/-- Puts the configuration back the way it was found and lists what could not be. -/
def restore (guard : Guard) : Session σ (List RestoreFailure) := do
  let (testSets, assigned) ← restoreTestSets guard.formerTestSets
  let directories ← restoreDirectories guard
  let deletions ← deleteTemporary guard.project assigned guard.temporary
  let activations ← reactivate guard.deactivated
  return testSets ++ directories ++ deletions ++ activations

/-- Logs what a restore left undone. -/
def announceIncomplete (failures : List RestoreFailure) : Session σ Unit := do
  unless failures.isEmpty do
    let steps := "; ".intercalate (failures.map (·.message))
    error "restore.incomplete"
      s!"configuration left partially restored; manual intervention required: {steps}"

/-- Gives a guard up that nobody restored. -/
def abandon (guard : Guard) : Session σ Unit := do
  warn "restore.on_drop" "mutation guard dropped without restore; restoring now"
  announceIncomplete (← guard.restore)

end Guard

end GuardedRun
