import GuardedRun.Settings.Codec
import GuardedRun.StateRoot
import GuardedRun.Yaml.Reader

/-!
Where settings come from. A file that is named has to exist; the one in the home directory may be
missing, and every setting then has its default. Settings that cannot be used are refused. What a text
says is left to a reader, since the program has its YAML read by a library.
-/

namespace GuardedRun

/-- Why there are no settings, or no place to log to. -/
inductive SettingsError
  | read (path : Path) (reason : String)
  | createDirectory (path : Path) (reason : String)
  | parse (path : Path) (reason : String)
  | missingFile (path : Path)
  | invalid (fault : SettingsFault)
  | homeUnavailable
  deriving DecidableEq, Repr

namespace SettingsError

def message : SettingsError → String
  | read path reason => s!"failed to read file {path}: {reason}"
  | createDirectory path reason => s!"failed to create directory {path}: {reason}"
  | parse path reason => s!"invalid yaml in {path}: {reason}"
  | missingFile path => s!"settings file {path} does not exist"
  | invalid fault => s!"settings validation failed: {fault.message}"
  | homeUnavailable => "failed to resolve home directory for global config path"

end SettingsError

/-- The files that settings can be read from. -/
structure FileAccess where
  /-- There is a regular file at the path. -/
  isFile : Path → Bool
  /-- The text of the file, or why there is none. -/
  read : Path → Except String String

/-- The state root of a user whose home directory is known. -/
def StateRoot.ofHome? : Option Path → Except SettingsError StateRoot
  | some home => .ok (ofHome home)
  | none => .error .homeUnavailable

namespace Settings

/-- Makes settings of the text of a file, or says why it makes none. -/
abbrev Reader := String → Except String Settings

/-- A reader of settings in plain YAML. It knows block and flow collections with plain and quoted scalars;
a text with anything else of YAML in it has no settings to it. -/
def ofText : Reader := fun text =>
  match Yaml.parse text >>= decode? with
  | some settings => .ok settings
  | none => .error "the document does not describe settings"

variable (reader : Reader)

def readFile (files : FileAccess) (path : Path) : Except SettingsError Settings :=
  match files.read path with
  | .error reason => .error (.read path reason)
  | .ok text => (reader text).mapError (.parse path)

/-- The settings of a named file. -/
def readNamed (files : FileAccess) (path : Path) : Except SettingsError Settings :=
  if files.isFile path then readFile reader files path else .error (.missingFile path)

/-- The settings in the home directory, which need not be there. -/
def readGlobal (files : FileAccess) (home : Option Path) : Except SettingsError Settings := do
  let path := (← StateRoot.ofHome? home).settingsFile
  if files.isFile path then readFile reader files path else return {}

def checked (settings : Settings) : Except SettingsError Settings :=
  match settings.fault? with
  | none => .ok settings
  | some fault => .error (.invalid fault)

/-- The settings that a call of the program works with. -/
def load (files : FileAccess) (home : Option Path) :
    (named : Option Path) → Except SettingsError Settings
  | some path => readNamed reader files path >>= checked
  | none => readGlobal reader files home >>= checked

end Settings

end GuardedRun
