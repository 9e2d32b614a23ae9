/-!
The ways in which a call to the engine can fail.
-/

namespace GuardedRun

inductive EngineError
  /-- The engine could not be reached, or what came back was no answer of it. -/
  | communication (method reason : String)
  /-- The engine refused the call; the log lines are its own. -/
  | application (method message : String) (log : List String)
  /-- The engine agreed, but what it sent cannot be read. -/
  | protocol (method reason : String)
  deriving DecidableEq, Repr

namespace EngineError

def method : EngineError → String
  | communication method _ => method
  | application method _ _ => method
  | protocol method _ => method

def detail : EngineError → String
  | communication _ reason => reason
  | application _ message _ => message
  | protocol _ reason => reason

/-- The lines that the engine attached to a refusal. -/
def remoteLog : EngineError → List String
  | application _ _ log => log
  | _ => []

def message : EngineError → String
  | communication method reason => s!"remote communication failed for `{method}`: {reason}"
  | application method message _ => s!"remote engine rejected `{method}`: {message}"
  | protocol method reason => s!"malformed engine response for `{method}`: {reason}"

end EngineError

end GuardedRun
