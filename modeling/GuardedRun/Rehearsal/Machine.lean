import GuardedRun.Host
import GuardedRun.Rehearsal.Service

/-!
A machine for rehearsals, as plain data: the files there are, a service that listens at a port, the
clock. Nothing outside of it is touched, so that a call of the program can be played through and
looked at afterwards.
-/

namespace GuardedRun.Rehearsal

/-- What lies at a path. -/
inductive Entry
  | directory
  | text (content : String)
  /-- A file that is no text and no program. -/
  | binary
  /-- A program that can be started and that may interrupt the one who started it, after a number of
  milliseconds. -/
  | program (interruptsAfter : Option Nat)
  deriving DecidableEq, Repr

def Entry.isFile : Entry → Bool
  | .directory => false
  | _ => true

structure Machine where
  home : Option Path := none
  workingDirectory : Except String Path := .ok ⟨"/"⟩
  entries : List (Path × Entry) := []
  /-- What listens, and the port it listens at. -/
  listener : Option (UInt16 × Service) := none
  /-- The requests that arrived, in order. -/
  requests : List Http.Request := []
  /-- The programs that were started, with their arguments. -/
  launches : List (Path × List String) := []
  interrupted : Bool := false
  /-- The moment at which the interrupt comes in. -/
  interruptAt : Option Nat := none
  /-- The milliseconds that have passed. -/
  clock : Nat := 0
  /-- The moment at which the clock started, in milliseconds since the epoch. -/
  epoch : Int := 0
  sample : Nat := 0
  processId : Nat := 1
  /-- How the system words its failures. -/
  systemReason : String := "refused by the system"
  /-- How a missing connection is worded. -/
  connectionReason : String := "connection refused"

namespace Machine

/-- The place of a path, as far as the working directory is known. -/
def place? (path : Path) (m : Machine) : Option Path := (path.place m.workingDirectory).toOption

/-- What lies at a path, as seen from the working directory. -/
def entry? (path : Path) (m : Machine) : Option Entry := do
  let place ← m.place? path
  let (_, entry) ← m.entries.find? fun (other, _) => other.same place
  return entry

def isFile (path : Path) (m : Machine) : Bool := (m.entry? path).any Entry.isFile

def read (path : Path) (m : Machine) : Except String String :=
  match m.entry? path with
  | some (.text content) => .ok content
  | _ => .error m.systemReason

/-- A file stands at the path or above it, or the path has no place, so that nothing can be made there. -/
def isObstructed (path : Path) (m : Machine) : Bool :=
  (m.place? path).all fun place =>
    m.entries.any fun (other, entry) => entry.isFile && other.components.isPrefixOf place.components

def createDirectory (path : Path) (m : Machine) : Except String Unit × Machine :=
  match m.place? path with
  | none => (.error m.systemReason, m)
  | some place =>
    if m.isObstructed place then (.error m.systemReason, m)
    else if (m.entry? place).isSome then (.ok (), m)
    else (.ok (), { m with entries := m.entries ++ [(place, .directory)] })

/-- There is a file at the path, or one can be made. -/
def isAppendable (path : Path) (m : Machine) : Bool :=
  match m.entry? path with
  | some entry => entry.isFile
  | none => !m.isObstructed path

/-- Only a host of this machine's own reaches its listener. -/
def listenerAt? (endpoint : Endpoint) (m : Machine) : Option Service := do
  let (port, service) ← m.listener
  if port = endpoint.port ∧ endpoint.host ∈ ["127.0.0.1", "localhost"] then some service else none

def send (endpoint : Endpoint) (request : Http.Request) (m : Machine) : Http.Outcome × Machine :=
  match m.listenerAt? endpoint with
  | none => (.error m.connectionReason, m)
  | some service =>
    let (outcome, service) := service.answer request
    (outcome.mapError fun _ => m.connectionReason,
      { m with
        listener := some (endpoint.port, service)
        requests := m.requests ++ [request]
        interrupted := m.interrupted || service.interrupted })

def launch (executable : Path) (arguments : List String) (m : Machine) :
    Except String Nat × Machine :=
  match m.entry? executable with
  | some (.program interruptsAfter) =>
    (.ok m.processId, { m with
      launches := m.launches ++ [(executable, arguments)]
      interruptAt := interruptsAfter.map (m.clock + ·) })
  | _ => (.error m.systemReason, m)

/-- The interrupt has come in by now. -/
def isInterrupted (m : Machine) : Bool := m.interrupted || m.interruptAt.any (· ≤ m.clock)

/-- The machine as a host of the program. -/
def host : Host Machine where
  send := fun endpoint _ request m => m.send endpoint request
  readEnvelope := Http.Envelope.read
  readSettings := Settings.ofText
  launch := launch
  pause := fun milliseconds m => { m with clock := m.clock + milliseconds }
  interrupted := isInterrupted
  clock := clock
  stamp := fun m => .ofMilliseconds (m.epoch + m.clock)
  files := fun m => { isFile := m.isFile, read := m.read }
  createDirectory := createDirectory
  isAppendable := isAppendable
  home := home
  workingDirectory := workingDirectory
  sample := sample

end Machine

end GuardedRun.Rehearsal
