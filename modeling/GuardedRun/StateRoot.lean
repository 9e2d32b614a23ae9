import GuardedRun.Path

/-!
The directory in which the program keeps its own files, and the places of those files.
-/

namespace GuardedRun

structure StateRoot where
  path : Path
  deriving DecidableEq, Repr

namespace StateRoot

/-- The state root of a user with a home directory. -/
def ofHome (home : Path) : StateRoot := ⟨home / ⟨".benchwarden"⟩⟩

def logDirectory (root : StateRoot) : Path := root.path / ⟨"logs"⟩

/-- The directories that are made before anything is logged. -/
def directories (root : StateRoot) : List Path := [root.logDirectory]

def settingsFile (root : StateRoot) : Path := root.path / ⟨"config.yaml"⟩

def runtimeLog (root : StateRoot) : Path := root.path / ⟨"logs/runtime.log"⟩

end StateRoot

end GuardedRun
