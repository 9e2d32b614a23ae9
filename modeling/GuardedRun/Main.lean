import GuardedRun.Cli.Program
import GuardedRun.Rehearsal.Machine
import Std.Time

/-!
The program. What a call may ask about this machine is looked up beforehand, the call is played
through on a machine of plain data, and what it leaves behind is written down afterwards: the log
directory, the runtime log, and the two outputs. No network and no other program is at hand, so
that an engine counts as not running.
-/

namespace GuardedRun

open Rehearsal

/-- What lies at a path. -/
def probe (path : Path) : IO (Option Entry) := do
  try
    let place ← IO.FS.realPath path.text
    match (← place.metadata).type with
    | .dir => return some .directory
    | .file =>
      try return some (.text (← IO.FS.readFile place))
      catch _ => return some .binary
    | _ => return none
  catch _ => return none

def probeAll (paths : List Path) : IO (List (Path × Entry)) :=
  paths.filterMapM fun path => do return (← probe path).map (path, ·)

/-- The paths that a call looks at before it knows its settings. -/
def watched (home : Option Path) (arguments : List String) : List Path :=
  let named := match Cli.splitSettings arguments with
    | .ok (some path, _) => [path]
    | _ => []
  let own := match home with
    | some home =>
      let root := StateRoot.ofHome home
      [home, root.path, root.logDirectory, root.settingsFile, root.runtimeLog]
    | none => []
  named ++ own

/-- The engines that the settings of a call name. -/
def executables (machine : Machine) (arguments : List String) : List Path :=
  match Cli.splitSettings arguments with
  | .ok (named, _) =>
    match Settings.load Settings.ofText (Machine.host.files machine) machine.home named with
    | .ok settings => settings.bootstrap.executables
    | .error _ => []
  | .error _ => []

/-- The directory that the program was started in, unless it is gone. -/
def workingDirectory : IO (Except String Path) := do
  try return .ok ⟨(← IO.currentDir).toString⟩
  catch e => return .error (toString e)

/-- This machine, as far as a call can tell. -/
def survey (arguments : List String) : IO Machine := do
  let home := (← IO.getEnv "HOME").map Path.mk
  let now ← Std.Time.Timestamp.now
  let machine : Machine := {
    home
    workingDirectory := ← workingDirectory
    entries := ← probeAll (watched home arguments)
    epoch := now.toMillisecondsSinceUnixEpoch.val
    sample := ← IO.rand 0 (Invocation.sampleSpace - 1)
    systemReason := "not supported on this machine"
    connectionReason := "no network" }
  return { machine with
    entries := machine.entries ++ (← probeAll (executables machine arguments)) }

/-- Appends what a call has logged to its file. -/
def writeLog (file : RuntimeLog) : IO Unit := do
  if file.content ≠ "" then
    let handle ← IO.FS.Handle.mk file.path.text .append
    handle.putStr file.content

/-- Writes down what a call has made of the machine it was given. -/
def leave (before : Machine) (world : World Machine) : IO Unit := do
  for (path, _) in world.outside.entries.drop before.entries.length do
    IO.FS.createDirAll path.text
  if let some file := world.log.runtime then writeLog file

end GuardedRun

open GuardedRun in
def main (arguments : List String) : IO UInt32 := do
  let machine ← survey arguments
  match Cli.run Rehearsal.Machine.host 0 arguments machine with
  | (some result, world) =>
    leave machine world
    let display := Cli.Display.of result world
    for line in display.errorLines do IO.eprintln line
    IO.print display.output
    return display.exitCode.toUInt32
  | (none, _) => return 1
