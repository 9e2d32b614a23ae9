import GuardedRun.Orchestration.Error

/-!
Waiting for an execution to end. The engine is asked at intervals; an interrupt or a deadline ends
the waiting early, and the engine is then told to cancel, on a best effort.
-/

namespace GuardedRun

/-- How an execution is waited for; times are in milliseconds. -/
structure Polling where
  interval : Nat := 1000
  deadline : Option Nat := none
  deriving DecidableEq, Repr

namespace Polling

def deadlinePassed (polling : Polling) (elapsed : Nat) : Bool :=
  match polling.deadline with
  | none => false
  | some deadline => deadline ≤ elapsed

end Polling

namespace Attempt

variable {σ : Type}

open MonadSession

/-- Tells the engine to cancel; whether it does only changes the log. -/
def cancelBestEffort (execution : Execution) (reason : String) : Session σ Unit := do
  match ← attempt (.cancel execution) with
  | .ok _ => warn "poll.cancelled" s!"{reason}; cancel sent to engine"
  | .error e => error "poll.cancel_failed" s!"{reason}; cancel request failed: {e.message}"

/-- Ends the waiting early. -/
def giveUp (execution : Execution) (reason : String) (e : OrchestrationError) :
    Attempt σ OrchestrationError Unit := do
  liftSession (cancelBestEffort execution reason)
  throw e

/-- Waits for an execution that started at a time. The number of rounds bounds how long the waiting
is followed: an engine that is never done is waited for without end. -/
def poll (execution : Execution) (polling : Polling) (started : Nat) :
    Nat → Attempt σ OrchestrationError Unit
  | 0 => liftSession Session.unfinished
  | rounds + 1 => do
    if ← liftSession Session.isInterrupted then
      giveUp execution "interrupted" .interrupted
    else
      let progress ← atStage .poll (ask (.progress execution))
      let elapsed := (← liftSession Session.clock) - started
      -- an execution that has ended is never too late
      if !progress.inProgress then
        info "poll.completed" s!"execution finished after {elapsed / 1000}s"
      else if polling.deadlinePassed elapsed then
        giveUp execution "deadline exceeded"
          (.pollDeadlineExceeded (polling.deadline.getD 0 / 1000))
      else if ← liftSession (Session.sleep polling.interval) then
        poll execution polling started rounds
      else
        giveUp execution "interrupted" .interrupted

/-- Waits until the engine reports the execution neither running nor pending. -/
def waitForCompletion (execution : Execution) (polling : Polling) (rounds : Nat) :
    Attempt σ OrchestrationError Unit := do
  let started ← liftSession Session.clock
  poll execution polling started rounds

end Attempt

end GuardedRun
