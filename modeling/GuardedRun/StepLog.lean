import GuardedRun.Json.Writer
import GuardedRun.Path
import GuardedRun.Text.Timestamp

/-!
The log of one call. Every line is kept in memory; with echo on it is also shown on the error
output, and with a runtime log it is appended to a file as one JSON object a line. A file that
cannot be written costs that file's lines and nothing else.
-/

namespace GuardedRun

inductive LogLevel
  | info
  | warn
  | error
  deriving DecidableEq, Repr

def LogLevel.text : LogLevel → String
  | .info => "info"
  | .warn => "warn"
  | .error => "error"

structure LogLine where
  level : LogLevel
  event : String
  message : String
  deriving DecidableEq, Repr

/-- The line as it is shown on the error output. -/
def LogLine.echo (line : LogLine) : String :=
  match line.level with
  | .info => s!"[benchwarden] {line.message}"
  | .warn => s!"[benchwarden] WARNING: {line.message}"
  | .error => s!"[benchwarden] ERROR: {line.message}"

/-- A moment, as seconds since the epoch and as text. -/
structure Stamp where
  seconds : Int
  time : String
  deriving DecidableEq, Repr

/-- The moment a number of milliseconds after the epoch. -/
def Stamp.ofMilliseconds (milliseconds : Int) : Stamp where
  seconds := milliseconds / 1000
  time := Text.timestamp milliseconds

/-- A log file shared by many invocations. -/
structure RuntimeLog where
  path : Path
  /-- The directory of the file exists or can be made, and the file can be opened. -/
  writable : Bool
  content : String := ""
  deriving DecidableEq, Repr

namespace RuntimeLog

def entry (stamp : Stamp) (invocation : Option String) (line : LogLine) : Json :=
  .obj [("event", .str line.event), ("invocation", Json.ofOption .str invocation),
    ("level", .str line.level.text), ("message", .str line.message), ("time", .str stamp.time),
    ("timestamp", .int stamp.seconds)]

def append (stamp : Stamp) (invocation : Option String) (line : LogLine) (file : RuntimeLog) :
    RuntimeLog :=
  if file.writable then
    { file with content := file.content ++ (entry stamp invocation line).render ++ "\n" }
  else file

end RuntimeLog

structure StepLog where
  lines : List LogLine := []
  echo : Bool := false
  /-- What was shown on the error output. -/
  echoed : List String := []
  runtime : Option RuntimeLog := none
  /-- Tells the lines of one invocation from those of the next in a shared file. -/
  invocation : Option String := none
  deriving DecidableEq, Repr

namespace StepLog

def record (stamp : Stamp) (line : LogLine) (log : StepLog) : StepLog :=
  { log with
    lines := log.lines ++ [line]
    echoed := if log.echo then log.echoed ++ [line.echo] else log.echoed
    runtime := log.runtime.map (·.append stamp log.invocation line) }

def messages (log : StepLog) : List String := log.lines.map (·.message)

def containsEvent (event : String) (log : StepLog) : Bool := log.lines.any (·.event == event)

@[simp] theorem lines_record (stamp : Stamp) (line : LogLine) (log : StepLog) :
    (log.record stamp line).lines = log.lines ++ [line] := rfl

end StepLog

end GuardedRun
