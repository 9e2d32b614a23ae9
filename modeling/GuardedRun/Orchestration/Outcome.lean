import GuardedRun.Orchestration.Guard
import GuardedRun.Orchestration.Poll

/-!
How an orchestration ends: what it is asked with, what it reports, and how the result of the
guarded part and that of restoring are put together.
-/

namespace GuardedRun

/-- What a caller fixes for all its orchestrations. -/
structure Orchestration where
  polling : Polling := {}
  /-- What the names of temporary test sets begin with. -/
  tempPattern : String := "JENKINS Exec"
  /-- How many rounds of waiting for an execution are followed. -/
  rounds : Nat
  deriving DecidableEq, Repr

/-- What a successful orchestration changed and put back. -/
structure Outcome where
  configuration : ConfigName
  temporary : List TestSetName
  reassigned : List Item
  deactivated : List Item
  deriving DecidableEq, Repr

def Outcome.summary (o : Outcome) : String :=
  s!"configuration `{o.configuration}` finished: {o.temporary.length} temporary test set(s), {o.reassigned.length} item(s) reassigned, {o.deactivated.length} item(s) deactivated"

/-- The result of an orchestration. An interruption wins over everything; otherwise a restore that
was not complete takes the place of the result and keeps its message as the cause. -/
def concludeResult {α : Type} (result : Except OrchestrationError α)
    (failures : List RestoreFailure) : Except OrchestrationError α :=
  match result with
  | .error .interrupted => .error .interrupted
  | result =>
    if failures.isEmpty then result
    else
      let cause := match result with
        | .ok _ => none
        | .error e => some e.message
      .error (.restoreIncomplete (failures.map (·.message)) cause)

section

variable {σ : Type}

/-- Does the guarded work, takes down what was changed, restores, and concludes. -/
def Guarded.conclude (work : Guarded σ OrchestrationError Unit) (guard : Guard)
    (outcome : Guard → Outcome) : Session σ (Except OrchestrationError Outcome) := do
  let (result, guard) ← work.run.run guard
  let failures ← guard.restore
  Guard.announceIncomplete failures
  return concludeResult (result.map fun _ => outcome guard) failures

end

end GuardedRun
