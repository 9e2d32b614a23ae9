import GuardedRun.Rehearsal.Store
import GuardedRun.Session

/-!
An engine for rehearsals, in memory. It stores what it is told, plays back the progress of its
executions, fails the calls it is told to fail, and raises the interrupt during the calls it is
told to raise it in. It records what was demanded and what it looked like when work was started.
-/

namespace GuardedRun.Rehearsal

inductive FaultKind
  | communication (reason : String)
  | application (message : String) (log : List String)
  | protocol (reason : String)
  deriving DecidableEq, Repr

def FaultKind.error (method : String) : FaultKind → EngineError
  | .communication reason => .communication method reason
  | .application message log => .application method message log
  | .protocol reason => .protocol method reason

/-- A failure of a method's calls: after the first `skip` of them, `times` times or for good. -/
structure Fault where
  method : String
  skip : Nat := 0
  times : Option Nat := none
  kind : FaultKind
  deriving DecidableEq, Repr

/-- An interrupt that comes in during the given call of a method, counted from one. -/
structure InterruptAt where
  method : String
  call : Nat
  deriving DecidableEq, Repr

/-- The configurations and test sets at a moment. -/
structure Snapshot where
  configurations : List StoredConfiguration
  testSets : List StoredTestSet
  deriving DecidableEq, Repr

structure Engine where
  store : Store := {}
  progresses : List Progress := []
  alwaysRunning : Bool := false
  ignoreNullTestSet : Bool := false
  faults : List Fault := []
  interrupts : List InterruptAt := []
  /-- What was demanded, in order. -/
  demands : List Demand := []
  /-- What there was when work was started. -/
  starts : List Snapshot := []
  interrupted : Bool := false
  /-- The milliseconds slept. -/
  elapsed : Nat := 0
  deriving Repr

/-- Lets a call of a method meet the faults in order: the error it fails with, if any, and the
faults as they are left. -/
def meetFaults (method : String) : List Fault → Option FaultKind × List Fault
  | [] => (none, [])
  | fault :: rest =>
    let pass (fault : Fault) :=
      let (met, rest) := meetFaults method rest
      (met, fault :: rest)
    if fault.method ≠ method then pass fault
    else if 0 < fault.skip then pass { fault with skip := fault.skip - 1 }
    else
      match fault.times with
      | none => (some fault.kind, fault :: rest)
      | some 0 => pass fault
      | some (n + 1) => (some fault.kind, { fault with times := some n } :: rest)

namespace Engine

def callsOf (method : String) (e : Engine) : Nat :=
  (e.demands.filter (·.method = method)).length

/-- Takes a demand in: it is recorded, and the interrupt raised if it is due. -/
def enter (demand : Demand) (e : Engine) : Engine :=
  let e := { e with demands := e.demands ++ [demand] }
  let due := e.interrupts.any fun i =>
    i.method = demand.method ∧ i.call = e.callsOf demand.method
  { e with interrupted := e.interrupted || due }

def snapshot (e : Engine) : Snapshot :=
  { configurations := e.store.configurations, testSets := e.store.testSets }

/-- The progress that is reported next, and the engine after reporting it. -/
def nextProgress (e : Engine) : Progress × Engine :=
  if e.alwaysRunning then ({ running := true, pending := false }, e)
  else
    match e.progresses with
    | [] => ({ running := false, pending := false }, e)
    | p :: rest => (p, { e with progresses := rest })

/-- Meets a demand that no fault stands against. -/
def serve (demand : Demand) (e : Engine) : Except EngineError Json × Engine :=
  match demand with
  | .progress _ =>
    let (p, e) := e.nextProgress
    (.ok p.toJson, e)
  | _ =>
    match e.store.answer e.ignoreNullTestSet demand with
    | .error rejection => (.error (.application demand.method rejection.message []), e)
    | .ok (reply, store) =>
      let starts := match demand with
        | .run _ | .regenerateReport _ => e.starts ++ [e.snapshot]
        | _ => e.starts
      (.ok reply, { e with store, starts })

/-- What comes of a demand. -/
def answer (demand : Demand) (e : Engine) : Except EngineError Json × Engine :=
  let e := e.enter demand
  let (met, faults) := meetFaults demand.method e.faults
  let e := { e with faults }
  match met with
  | some kind => (.error (kind.error demand.method), e)
  | none => e.serve demand

/-- The typed answer to a call. -/
def reply (call : Call) (e : Engine) : Except EngineError call.Reply × Engine :=
  let (answer, e) := e.answer call.demand
  let typed := match answer with
    | .error error => .error error
    | .ok data =>
      match call.decodeReply data with
      | .ok reply => .ok reply
      | .error fault => .error (.protocol call.method fault.message)
  (typed, e)

/-- Time stands still for a rehearsal, sleeps apart. -/
def stamp (e : Engine) : Stamp := .ofMilliseconds e.elapsed

end Engine

/-- The environment in which a rehearsal engine answers directly. -/
def environment : Environment Engine where
  answer := Engine.reply
  launch := fun _ _ e => (.error "nothing is started in a rehearsal", e)
  pause := fun milliseconds e => { e with elapsed := e.elapsed + milliseconds }
  isFile := fun _ _ => false
  interrupted := Engine.interrupted
  clock := Engine.elapsed
  stamp := Engine.stamp

end GuardedRun.Rehearsal
