import GuardedRun.Engine.Call
import GuardedRun.StepLog

/-!
Sessions with an engine. A session asks its environment for everything that is not its own: answers
of the engine, the start of a process, the passing of time, and whether somebody has interrupted.
The environment may answer anything at any moment; what is proved about a session for every
environment holds of every engine. The world of a session keeps what was asked and answered, in
order, so that statements about a run can speak of its calls.
-/

namespace GuardedRun

/-- What stands outside of a session, with a state of its own. -/
structure Environment (σ : Type) where
  answer : (call : Call) → σ → Except EngineError call.Reply × σ
  /-- Starts a program with arguments: its process id, or why it did not start. -/
  launch : Path → List String → σ → Except String Nat × σ
  /-- Lets a time pass, which the program counts in milliseconds. -/
  pause : Nat → σ → σ
  isFile : Path → σ → Bool
  /-- An interrupt has come in by now. -/
  interrupted : σ → Bool
  /-- A clock in milliseconds that is never set back. -/
  clock : σ → Nat
  stamp : σ → Stamp

/-- One thing that happened between a session and its environment. -/
inductive Event
  | asked (call : Call) (answer : Except EngineError call.Reply)
  | launched (executable : Path) (arguments : List String) (result : Except String Nat)
  | slept (milliseconds : Nat)
  /-- The interrupt came in during the event before. -/
  | interrupted

structure World (σ : Type) where
  outside : σ
  /-- The flag stays up once it was raised. -/
  interrupted : Bool := false
  events : List Event := []
  log : StepLog := {}

namespace World

variable {σ : Type}

/-- The world after an event that left the outside in a state. -/
def after (env : Environment σ) (event : Event) (outside : σ) (w : World σ) : World σ :=
  { w with
    outside
    interrupted := w.interrupted || env.interrupted outside
    events := w.events ++ event ::
      if !w.interrupted && env.interrupted outside then [.interrupted] else [] }

end World

/-- A unit of time, by how many of it make a millisecond. -/
structure TimeUnit where
  perMillisecond : Nat
  positive : 0 < perMillisecond

namespace TimeUnit

def millisecond : TimeUnit := ⟨1, by decide⟩

/-- The longest time for which an interrupt goes unnoticed in a sleep: 200 milliseconds. -/
def slice (unit : TimeUnit) : Nat := 200 * unit.perMillisecond

theorem slice_pos (unit : TimeUnit) : 0 < unit.slice := Nat.mul_pos (by decide) unit.positive

end TimeUnit

/-- Work done with an environment. It has no value where it is still going on after as many rounds
as were to be followed; the world shows what it did until then. -/
abbrev Session (σ : Type) : Type → Type := ReaderT (Environment σ) (OptionT (StateM (World σ)))

/-- A session that may end with an error of a type. -/
abbrev Attempt (σ ε : Type) : Type → Type := ExceptT ε (Session σ)

namespace Session

variable {σ ε α : Type}

def run (session : Session σ α) (env : Environment σ) (w : World σ) : Option α × World σ :=
  session env w

/-- Makes a call. -/
def ask (call : Call) : Session σ (Except EngineError call.Reply) := fun env => OptionT.mk fun w =>
  let (answer, outside) := env.answer call w.outside
  (some answer, w.after env (.asked call answer) outside)

def launch (executable : Path) (arguments : List String) : Session σ (Except String Nat) :=
  fun env => OptionT.mk fun w =>
    let (result, outside) := env.launch executable arguments w.outside
    (some result, w.after env (.launched executable arguments result) outside)

def pause (milliseconds : Nat) : Session σ Unit := fun env => OptionT.mk fun w =>
  (some (), w.after env (.slept milliseconds) (env.pause milliseconds w.outside))

def isInterrupted : Session σ Bool := fun _ => OptionT.mk fun w => (some w.interrupted, w)

def clock : Session σ Nat := fun env => OptionT.mk fun w => (some (env.clock w.outside), w)

def note (line : LogLine) : Session σ Unit := fun env => OptionT.mk fun w =>
  (some (), { w with log := w.log.record (env.stamp w.outside) line })

/-- Stands for work that is followed no further. -/
def unfinished : Session σ α := fun _ => OptionT.mk fun w => (none, w)

/-- Sleeps for a time in slices and says whether it passed without an interrupt being seen. The time
is counted in the unit in which the environment lets time pass. -/
def sleepIn (unit : TimeUnit) (total : Nat) : Session σ Bool := do
  if total = 0 then return !(← isInterrupted)
  if ← isInterrupted then return false
  pause (min total unit.slice)
  sleepIn unit (total - unit.slice)
termination_by total
decreasing_by have := unit.slice_pos; omega

/-- A sleep as the program counts it, in milliseconds. -/
def sleep (milliseconds : Nat) : Session σ Bool := sleepIn .millisecond milliseconds

end Session

/-- A monad in which a session's work can be done. -/
class MonadSession (σ : outParam Type) (m : Type → Type) where
  liftSession : {α : Type} → Session σ α → m α

namespace MonadSession

variable {σ ε : Type} {m : Type → Type}

instance : MonadSession σ (Session σ) := ⟨id⟩

instance [Monad m] [MonadSession σ m] : MonadSession σ (ExceptT ε m) :=
  ⟨fun session => ExceptT.lift (liftSession session)⟩

instance {τ : Type} [Monad m] [MonadSession σ m] : MonadSession σ (StateT τ m) :=
  ⟨fun session => StateT.lift (liftSession session)⟩

variable [MonadSession σ m]

def note (line : LogLine) : m Unit := liftSession (Session.note line)

def info (event message : String) : m Unit := note { level := .info, event, message }

def warn (event message : String) : m Unit := note { level := .warn, event, message }

def error (event message : String) : m Unit := note { level := .error, event, message }

/-- Makes a call and goes on with its answer, whatever that is. -/
def attempt (call : Call) : m (Except EngineError call.Reply) := liftSession (Session.ask call)

/-- Makes a call and goes on with its reply; a failing call ends the work. -/
def ask [Monad m] (call : Call) : ExceptT EngineError m call.Reply := ExceptT.mk (attempt call)

end MonadSession

end GuardedRun
