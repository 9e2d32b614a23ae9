import GuardedRun.Engine.Connection
import GuardedRun.Orchestration.Poll

/-!
The settings of the program. Every setting has a default, which is given in two places: with its
field, for settings that no document tells of, and where a document's fields are read.
-/

namespace GuardedRun

namespace SettingDefault

def host : String := "127.0.0.1"

def port : UInt16 := 1099

def binding : String := "TestEngineApi"

def connectTimeoutMs : UInt64 := 5000

def requestTimeoutMs : UInt64 := 60000

def startupGraceSecs : UInt64 := 30

def pollIntervalMs : UInt64 := 1000

def tempTestSetPrefix : String := "JENKINS Exec"

/-- The default of a flag. -/
def flag : Bool := true

end SettingDefault

structure EngineSettings where
  host : String := SettingDefault.host
  port : UInt16 := SettingDefault.port
  binding : String := SettingDefault.binding
  connectTimeoutMs : UInt64 := SettingDefault.connectTimeoutMs
  requestTimeoutMs : UInt64 := SettingDefault.requestTimeoutMs
  deriving DecidableEq, Repr

structure BootstrapSettings where
  enabled : Bool := true
  executables : List Path := []
  startupGraceSecs : UInt64 := SettingDefault.startupGraceSecs
  extraArgs : List String := []
  deriving DecidableEq, Repr

structure PollingSettings where
  intervalMs : UInt64 := SettingDefault.pollIntervalMs
  deadlineSecs : Option UInt64 := none
  deriving DecidableEq, Repr

structure OrchestrationSettings where
  tempTestSetPrefix : String := SettingDefault.tempTestSetPrefix
  deriving DecidableEq, Repr

structure LoggingSettings where
  echo : Bool := true
  runtimeLog : Bool := true
  deriving DecidableEq, Repr

structure Settings where
  engine : EngineSettings := {}
  bootstrap : BootstrapSettings := {}
  polling : PollingSettings := {}
  orchestration : OrchestrationSettings := {}
  logging : LoggingSettings := {}
  deriving DecidableEq, Repr

namespace Settings

def endpoint (s : Settings) : Endpoint :=
  { host := s.engine.host, port := s.engine.port, binding := s.engine.binding }

def timeouts (s : Settings) : Timeouts :=
  { connect := s.engine.connectTimeoutMs.toNat, request := s.engine.requestTimeoutMs.toNat }

def bootstrapOptions (s : Settings) : Bootstrap :=
  { executables := s.bootstrap.executables
    grace := s.bootstrap.startupGraceSecs.toNat * 1000
    extraArgs := s.bootstrap.extraArgs }

def pollingOptions (s : Settings) : Polling :=
  { interval := s.polling.intervalMs.toNat
    deadline := s.polling.deadlineSecs.map (·.toNat * 1000) }

end Settings

/-- What makes settings unusable. -/
inductive SettingsFault
  | emptyHost
  | zeroPort
  | emptyBinding
  | bindingCharacters
  | zeroTimeout
  | longGrace
  | shortInterval
  | zeroDeadline
  | emptyPrefix
  deriving DecidableEq, Repr

def SettingsFault.message : SettingsFault → String
  | emptyHost => "engine.host must be non-empty"
  | zeroPort => "engine.port must be greater than 0"
  | emptyBinding => "engine.binding must be non-empty"
  | bindingCharacters =>
    "engine.binding must use only ASCII letters, digits, '-', '_' or '.'"
  | zeroTimeout => "engine timeouts must be greater than 0"
  | longGrace => "bootstrap.startup_grace_secs must be at most 3600"
  | shortInterval => "polling.interval_ms must be at least 10"
  | zeroDeadline => "polling.deadline_secs must be greater than 0 when set"
  | emptyPrefix => "orchestration.temp_test_set_prefix must be non-empty"

namespace Settings

def isBindingChar (c : Char) : Bool := c.isAlphanum || c == '-' || c == '_' || c == '.'

/-- The first fault of settings, if there is one. -/
def fault? (s : Settings) : Option SettingsFault :=
  if Text.isBlankText s.engine.host then some .emptyHost
  else if s.engine.port = 0 then some .zeroPort
  else if s.engine.binding.isEmpty then some .emptyBinding
  else if ¬ s.engine.binding.toList.all isBindingChar then some .bindingCharacters
  else if s.engine.connectTimeoutMs = 0 ∨ s.engine.requestTimeoutMs = 0 then some .zeroTimeout
  else if 3600 < s.bootstrap.startupGraceSecs then some .longGrace
  else if s.polling.intervalMs < 10 then some .shortInterval
  else if s.polling.deadlineSecs = some 0 then some .zeroDeadline
  else if Text.isBlankText s.orchestration.tempTestSetPrefix then some .emptyPrefix
  else none

end Settings

end GuardedRun
