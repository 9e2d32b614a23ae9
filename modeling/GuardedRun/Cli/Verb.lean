/-!
The commands of the program and the help that lists them.
-/

namespace GuardedRun.Cli

inductive Verb
  | run
  | regenerateReport
  | closeProject
  | ping
  | startEngine
  | help
  | unknown
  deriving DecidableEq, Repr

def Verb.parse : String → Verb
  | "run" => .run
  | "regenerate-report" => .regenerateReport
  | "close-project" => .closeProject
  | "ping" => .ping
  | "start-engine" => .startEngine
  | "help" => .help
  | "--help" => .help
  | "-h" => .help
  | _ => .unknown

def helpLines : List String :=
  [ "Usage: benchwarden <command> [--settings <path>] [flags]",
    "",
    "Commands:",
    "  run                                  Run selected test cases of an execution configuration",
    "      --project <path> --config <name> --data-dir <dir> --report-dir <dir>",
    "      [--test-case <name>]... [--test-cases a,b] [--test-set <name>]",
    "  regenerate-report                    Regenerate the overview report of a configuration",
    "      --project <path> --config <name> [--test-set <name>]",
    "      [--data-dir <dir>] [--report-dir <dir>]",
    "  close-project --project <path>       Close a project if the engine has it open",
    "  ping                                 Check that the engine answers under its binding",
    "  start-engine                         Connect, launching the engine if it is not running" ]

def helpText : String := "\n".intercalate helpLines

end GuardedRun.Cli
