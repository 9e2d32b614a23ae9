import GuardedRun.Orchestration.Error

/-!
How a command fails: what is shown and with which code the program ends.
-/

namespace GuardedRun.Cli

inductive Failure
  | failed (message : String)
  | interrupted
  deriving DecidableEq, Repr

namespace Failure

def message : Failure → String
  | failed message => message
  | interrupted => "interrupted"

def exitCode : Failure → Nat
  | failed _ => 1
  | interrupted => 130

def ofOrchestration : OrchestrationError → Failure
  | .interrupted => interrupted
  | e => failed e.message

def ofConnect (e : ConnectError) : Failure := ofOrchestration (.ofConnect e)

end Failure

end GuardedRun.Cli
