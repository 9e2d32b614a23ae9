import GuardedRun.Json.Member
import GuardedRun.Json.Source
import GuardedRun.StepLog

/-!
Reading a runtime log back: the lines of the file, and what each of them records.
-/

namespace GuardedRun

def LogLevel.ofText? : String → Option LogLevel
  | "info" => some .info
  | "warn" => some .warn
  | "error" => some .error
  | _ => none

/-- What one line of a runtime log records. -/
structure LogEntry where
  line : LogLine
  invocation : Option String
  stamp : Stamp
  deriving DecidableEq, Repr

namespace LogEntry

open Json

def ofJson? (j : Json) : Option LogEntry := do
  let line : LogLine := {
    level := ← LogLevel.ofText? (← textAt? "level" j)
    event := ← textAt? "event" j
    message := ← textAt? "message" j }
  let stamp : Stamp := {
    seconds := ← j.get? "timestamp" >>= int?
    time := ← textAt? "time" j }
  return { line, invocation := ← optionalTextAt? "invocation" j, stamp }

def parse? (text : String) : Option LogEntry := do ofJson? (← Json.parse text)

end LogEntry

namespace RuntimeLog

/-- The lines of a file, without the empty one behind the last line break. -/
def fileLines (file : RuntimeLog) : List String :=
  (Text.splitOn '\n' file.content.toList).dropLast.map String.ofList

/-- What the lines of a file record, if every line can be read. -/
def entries? (file : RuntimeLog) : Option (List LogEntry) := file.fileLines.mapM LogEntry.parse?

end RuntimeLog

theorem LogLevel.ofText?_text (level : LogLevel) : ofText? level.text = some level := by
  cases level <;> rfl

end GuardedRun
