import GuardedRun.Orchestration.Report

/-!
Command line arguments. The settings flag may stand anywhere; every other argument is a flag with a
value, and of a flag given twice the last value counts, test cases apart, which add up.
-/

namespace GuardedRun.Cli

/-- What is wrong with a command's arguments. -/
inductive FlagError
  | settingsWithoutPath
  | unknownFlag (command flag : String)
  | unexpectedArgument (command argument : String)
  | withoutValue (flag : String)
  | invalidName (kind : NameKind) (fault : NameFault)
  | unplaced (raw reason : String)
  | missing (command flag : String)
  deriving DecidableEq, Repr

def FlagError.message : FlagError → String
  | settingsWithoutPath => "--settings requires a path"
  | unknownFlag command flag => s!"unknown {command} flag `{flag}`"
  | unexpectedArgument command argument => s!"unexpected argument `{argument}` for {command}"
  | withoutValue flag => s!"{flag} requires a value"
  | invalidName kind fault => fault.message kind.label
  | unplaced raw reason => s!"failed to resolve `{raw}` against the working directory: {reason}"
  | missing command flag => s!"{command} requires {flag}"

/-- Takes the settings flag out of the arguments, wherever it stands: the last path it was given,
and the rest. -/
def splitSettings : List String → Except FlagError (Option Path × List String)
  | [] => .ok (none, [])
  | "--settings" :: rest =>
    match rest with
    | [] => .error .settingsWithoutPath
    | path :: rest => do
      let (later, others) ← splitSettings rest
      return (later.or (some ⟨path⟩), others)
  | argument :: rest => do
    let (settings, others) ← splitSettings rest
    return (settings, argument :: others)

inductive Flag
  | project
  | config
  | testCase
  | testCases
  | testSet
  | dataDir
  | reportDir
  deriving DecidableEq, Repr

def Flag.text : Flag → String
  | project => "--project"
  | config => "--config"
  | testCase => "--test-case"
  | testCases => "--test-cases"
  | testSet => "--test-set"
  | dataDir => "--data-dir"
  | reportDir => "--report-dir"

/-- The values that flags were given. -/
structure FlagValues where
  project : Option Path := none
  config : Option ConfigName := none
  testCases : NameSet .scenario := .empty
  testSet : Option TestSetName := none
  dataDir : Option Path := none
  reportDir : Option Path := none
  deriving DecidableEq, Repr

/-- A command with flags. -/
structure Grammar where
  command : String
  allowed : List Flag
  deriving DecidableEq, Repr

def runGrammar : Grammar where
  command := "run"
  allowed := [.project, .config, .testCase, .testCases, .testSet, .dataDir, .reportDir]

def reportGrammar : Grammar where
  command := "regenerate-report"
  allowed := [.project, .config, .testSet, .dataDir, .reportDir]

def closeGrammar : Grammar where
  command := "close-project"
  allowed := [.project]

def parseName (kind : NameKind) (raw : String) : Except FlagError (Name kind) :=
  (Name.parse raw).mapError (.invalidName kind)

/-- The place of a path on this machine. The engine runs elsewhere and would take a relative path from a
directory of its own. -/
def absolutePath (workingDirectory : Except String Path) (raw : String) : Except FlagError Path :=
  (Path.place workingDirectory ⟨raw⟩).mapError (.unplaced raw)

/-- The names in a comma-separated list; blanks around a name and empty places are passed over. -/
def segments (raw : String) : List String :=
  ((Text.splitOn ',' raw.toList).map fun part => String.ofList (Text.trimChars part)).filter
    (· ≠ "")

def addTestCases (set : NameSet .scenario) : List String → Except FlagError (NameSet .scenario)
  | [] => .ok set
  | raw :: rest => do
    let name ← parseName .scenario raw
    addTestCases (set.insert name) rest

/-- Takes in the value of one flag. -/
def FlagValues.take (workingDirectory : Except String Path) (values : FlagValues) (raw : String) :
    Flag → Except FlagError FlagValues
  | .project => do return { values with project := some (← absolutePath workingDirectory raw) }
  | .config => do return { values with config := some (← parseName .configuration raw) }
  | .testCase => do return { values with testCases := ← addTestCases values.testCases [raw] }
  | .testCases => do
    return { values with testCases := ← addTestCases values.testCases (segments raw) }
  | .testSet => do return { values with testSet := some (← parseName .testSet raw) }
  | .dataDir => do return { values with dataDir := some (← absolutePath workingDirectory raw) }
  | .reportDir => do return { values with reportDir := some (← absolutePath workingDirectory raw) }

namespace Grammar

/-- Why an argument cannot stand where a flag is expected. -/
def refuse (grammar : Grammar) (argument : String) : FlagError :=
  if "--".isPrefixOf argument then .unknownFlag grammar.command argument
  else .unexpectedArgument grammar.command argument

def flag? (grammar : Grammar) (argument : String) : Option Flag :=
  grammar.allowed.find? (·.text = argument)

/-- Reads pairs of a flag and its value. -/
def parse (grammar : Grammar) (workingDirectory : Except String Path) (values : FlagValues) :
    List String → Except FlagError FlagValues
  | [] => .ok values
  | argument :: rest =>
    match grammar.flag? argument with
    | none => .error (grammar.refuse argument)
    | some flag =>
      match rest with
      | [] => .error (.withoutValue argument)
      | raw :: rest => do
        let values ← values.take workingDirectory raw flag
        grammar.parse workingDirectory values rest

def require {α : Type} (grammar : Grammar) (flag : Flag) : Option α → Except FlagError α
  | some a => .ok a
  | none => .error (.missing grammar.command flag.text)

end Grammar

def parseRun (workingDirectory : Except String Path) (arguments : List String) :
    Except FlagError ExecutionRequest := do
  let values ← runGrammar.parse workingDirectory {} arguments
  return {
    project := ← runGrammar.require .project values.project
    configuration := ← runGrammar.require .config values.config
    testCases := values.testCases
    testSet := values.testSet
    dataDir := ← runGrammar.require .dataDir values.dataDir
    reportDir := ← runGrammar.require .reportDir values.reportDir }

def parseReport (workingDirectory : Except String Path) (arguments : List String) :
    Except FlagError ReportRequest := do
  let values ← reportGrammar.parse workingDirectory {} arguments
  return {
    project := ← reportGrammar.require .project values.project
    configuration := ← reportGrammar.require .config values.config
    testSet := values.testSet
    dataDir := values.dataDir
    reportDir := values.reportDir }

def parseClose (workingDirectory : Except String Path) (arguments : List String) :
    Except FlagError Path := do
  let values ← closeGrammar.parse workingDirectory {} arguments
  closeGrammar.require .project values.project

/-- A command without arguments. -/
def expectNone (command : String) : List String → Except FlagError Unit
  | [] => .ok ()
  | argument :: _ => .error (.unexpectedArgument command argument)

end GuardedRun.Cli
