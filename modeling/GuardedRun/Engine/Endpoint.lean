import GuardedRun.Text.PercentEncoding

/-!
Where the engine listens: a host, a port and the name it is bound under.
-/

namespace GuardedRun

structure Endpoint where
  host : String
  port : UInt16
  binding : String
  deriving DecidableEq, Repr

namespace Endpoint

def text (e : Endpoint) : String := s!"{e.host}:{e.port.toNat}/{e.binding}"

instance : ToString Endpoint := ⟨text⟩

def encodedBinding (e : Endpoint) : String := Text.PercentEncoding.encode e.binding

def baseUrl (e : Endpoint) : String := s!"http://{e.host}:{e.port.toNat}/{e.encodedBinding}"

/-- The path under which the engine takes calls. A binding of dots alone stands for no segment of a
path, as in every URL. -/
def basePath (e : Endpoint) : String :=
  if e.binding = "." ∨ e.binding = ".." then "" else "/" ++ e.encodedBinding

end Endpoint

/-- How long to wait for a connection and for an answer, in milliseconds. -/
structure Timeouts where
  connect : Nat
  request : Nat
  deriving DecidableEq, Repr

end GuardedRun
