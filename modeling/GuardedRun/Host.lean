import GuardedRun.Engine.Endpoint
import GuardedRun.Engine.Http
import GuardedRun.Session
import GuardedRun.Settings.Load

/-!
The machine that the program runs on, as far as the program asks anything of it: the network, the
files, other programs, the clock, and the libraries that read what comes in. It may answer anything. A
host and the place of an engine make up the environment of a session with that engine.
-/

namespace GuardedRun

structure Host (σ : Type) where
  /-- Posts a request to an endpoint and waits for the response. -/
  send : Endpoint → Timeouts → Http.Request → σ → Http.Outcome × σ
  readEnvelope : Http.Envelope.Reader
  readSettings : Settings.Reader
  /-- Starts a program with arguments: its process id, or why it did not start. -/
  launch : Path → List String → σ → Except String Nat × σ
  /-- Lets a number of milliseconds pass. -/
  pause : Nat → σ → σ
  /-- An interrupt has come in by now. -/
  interrupted : σ → Bool
  /-- A clock in milliseconds that is never set back. -/
  clock : σ → Nat
  stamp : σ → Stamp
  files : σ → FileAccess
  /-- Makes a directory and the ones above it, as far as they are missing. -/
  createDirectory : Path → σ → Except String Unit × σ
  /-- A line can be written to the end of the file, which is made where it is missing. -/
  isAppendable : Path → σ → Bool
  home : σ → Option Path
  /-- The directory that the program works in, or why it is unknown. -/
  workingDirectory : σ → Except String Path
  /-- A random number. -/
  sample : σ → Nat

namespace Host

variable {σ : Type}

/-- The environment of a session with the engine at an endpoint. -/
def environment (host : Host σ) (endpoint : Endpoint) (timeouts : Timeouts) : Environment σ where
  answer := fun call outside =>
    let (outcome, outside) :=
      host.send endpoint timeouts (Http.request endpoint.basePath call) outside
    (Http.interpret host.readEnvelope call outcome, outside)
  launch := host.launch
  pause := host.pause
  isFile := fun path outside => (host.files outside).isFile path
  interrupted := host.interrupted
  clock := host.clock
  stamp := host.stamp

end Host

end GuardedRun
