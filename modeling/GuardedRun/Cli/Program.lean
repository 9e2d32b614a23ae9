import GuardedRun.Cli.Command
import GuardedRun.Host
import GuardedRun.Interrupt
import GuardedRun.Invocation

/-!
A call of the program, from its arguments to its end. Help and mistaken commands are settled without
settings; everything else loads them first, then reads the rest of the arguments, and only then
turns to the engine.
-/

namespace GuardedRun.Cli

variable {σ : Type}

/-- The log of a call, and the host once the place of the runtime log is prepared. -/
def openLog (host : Host σ) (settings : Settings) (outside : σ) :
    Except SettingsError StepLog × σ :=
  let log : StepLog := { echo := settings.logging.echo }
  if settings.logging.runtimeLog then
    match StateRoot.ofHome? (host.home outside) with
    | .error e => (.error e, outside)
    | .ok root =>
      let (made, outside) := host.createDirectory root.logDirectory outside
      match made with
      | .error reason => (.error (.createDirectory root.logDirectory reason), outside)
      | .ok () =>
        let writable := host.isAppendable root.runtimeLog outside
        let invocation := Invocation.id (host.stamp outside).seconds (host.sample outside)
        (.ok { log with
          runtime := some { path := root.runtimeLog, writable }
          invocation := invocation.toOption }, outside)
  else (.ok log, outside)

/-- The settings and the log that a call works with. -/
def prepare (host : Host σ) (named : Option Path) (outside : σ) :
    Except SettingsError (Settings × StepLog) × σ :=
  match Settings.load host.readSettings (host.files outside) (host.home outside) named with
  | .error e => (.error e, outside)
  | .ok settings =>
    let (log, outside) := openLog host settings outside
    (log.map (settings, ·), outside)

/-- What a call of the program comes to, if it ends within the rounds, and the world it leaves. -/
abbrev Ending (σ : Type) : Type := Option (Except Failure String) × World σ

/-- A call that ends without a session. -/
def settled (result : Except Failure String) (outside : σ) : Ending σ :=
  (some result, { outside })

/-- Loads the settings, reads the arguments of a verb and carries the command out. -/
def work (host : Host σ) (rounds : Nat) (named : Option Path) (verb : Verb)
    (arguments : List String) (outside : σ) : Ending σ :=
  let (prepared, outside) := prepare host named outside
  match prepared with
  | .error e => settled (.error (.failed e.message)) outside
  | .ok (settings, log) =>
    let world : World σ := { outside, interrupted := host.interrupted outside, log }
    match Command.parse? (host.workingDirectory outside) verb arguments with
    | .error e => (some (.error (.failed e.message)), world)
    | .ok none => (some (.ok helpText), world)
    | .ok (some command) =>
      Session.run (command.perform settings rounds).run
        (host.environment settings.endpoint settings.timeouts) world

/-- Runs the program on its arguments. -/
def run (host : Host σ) (rounds : Nat) (arguments : List String) (outside : σ) : Ending σ :=
  match splitSettings arguments with
  | .error e => settled (.error (.failed e.message)) outside
  | .ok (_, []) => settled (.ok helpText) outside
  | .ok (named, word :: rest) =>
    match Verb.parse word with
    | .help => settled (.ok helpText) outside
    | .unknown => settled (.error (.failed s!"unknown command `{word}`")) outside
    | verb => work host rounds named verb rest outside

/-- What a call shows and the code it ends with. -/
structure Display where
  output : String
  /-- The lines on the error output. -/
  errorLines : List String
  exitCode : Nat
  deriving DecidableEq, Repr

/-- What is shown of a call. The first signal is answered on the error output at once, a failure
when everything else is over. -/
def Display.of (result : Except Failure String) (world : World σ) : Display :=
  let signal := if world.interrupted then [SignalResponse.stopAfterCleanup.line.echo] else []
  match result with
  | .ok output =>
    { output := output ++ "\n", errorLines := world.log.echoed ++ signal, exitCode := 0 }
  | .error failure =>
    { output := "", errorLines := world.log.echoed ++ signal ++ [failure.message],
      exitCode := failure.exitCode }

end GuardedRun.Cli
