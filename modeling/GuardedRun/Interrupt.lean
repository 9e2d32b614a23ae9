import GuardedRun.StepLog

/-!
Interrupt flags and what signals do to them. A flag is raised once and never lowered. The first
signal raises it, so that the running call stops and cleans up; a further one gives the cleanup up.
-/

namespace GuardedRun

namespace Interrupt

/-- Flags that several holders may share; a holder knows its flag by number. -/
structure Flags where
  raised : List Bool := []
  deriving DecidableEq, Repr

namespace Flags

/-- A new flag that is down, and its number. -/
def fresh (flags : Flags) : Nat × Flags := (flags.raised.length, ⟨flags.raised ++ [false]⟩)

def isRaised (flag : Nat) (flags : Flags) : Bool := flags.raised[flag]?.getD false

def raise (flag : Nat) (flags : Flags) : Flags := ⟨flags.raised.set flag true⟩

/-- Raises a flag and says whether it was up already. -/
def escalate (flag : Nat) (flags : Flags) : Bool × Flags := (flags.isRaised flag, flags.raise flag)

theorem isRaised_raise {flag : Nat} {flags : Flags} (h : flag < flags.raised.length) :
    (flags.raise flag).isRaised flag := by
  simp [isRaised, raise, h]

end Flags

end Interrupt

/-- What the program does about an interrupt signal. -/
inductive SignalResponse
  | stopAfterCleanup
  | abandon
  deriving DecidableEq, Repr

namespace SignalResponse

/-- A signal that finds the flag up already is a repeated one. -/
def of (alreadyRaised : Bool) : SignalResponse :=
  if alreadyRaised then .abandon else .stopAfterCleanup

def line : SignalResponse → LogLine
  | stopAfterCleanup =>
    { level := .warn, event := "interrupt.received",
      message := "interrupt received; stopping after cleanup (interrupt again to abandon)" }
  | abandon =>
    { level := .error, event := "restore.abandoned",
      message := "second interrupt received; restore abandoned, the execution configuration may be left modified" }

/-- Only the abandoned restore goes into the runtime log, under no invocation. -/
def record (stamp : Stamp) (response : SignalResponse) (file : RuntimeLog) : RuntimeLog :=
  match response with
  | stopAfterCleanup => file
  | abandon => file.append stamp none response.line

end SignalResponse

end GuardedRun
