import GuardedRun.Settings.Basic
import GuardedRun.Settings.Document

/-!
Reading settings from a document and writing them as JSON. What a document leaves out keeps its
default; what it adds is passed over.
-/

namespace GuardedRun

open Document

variable {ν : Type} [Document ν]

def EngineSettings.decode? (d : ν) : Option EngineSettings := do
  match ← fields? ["host", "port", "binding", "connect_timeout_ms", "request_timeout_ms"] d with
  | [host, port, binding, connect, request] =>
    return {
      host := ← orDefault SettingDefault.host text? host
      port := ← orDefault SettingDefault.port word16? port
      binding := ← orDefault SettingDefault.binding text? binding
      connectTimeoutMs := ← orDefault SettingDefault.connectTimeoutMs word64? connect
      requestTimeoutMs := ← orDefault SettingDefault.requestTimeoutMs word64? request }
  | _ => none

def BootstrapSettings.decode? (d : ν) : Option BootstrapSettings := do
  let path? (d : ν) : Option Path := (text? d).map Path.mk
  match ← fields? ["enabled", "executables", "startup_grace_secs", "extra_args"] d with
  | [enabled, executables, grace, extraArgs] =>
    return {
      enabled := ← orDefault SettingDefault.flag flag? enabled
      executables := ← orDefault [] (list? path?) executables
      startupGraceSecs := ← orDefault SettingDefault.startupGraceSecs word64? grace
      extraArgs := ← orDefault [] (list? text?) extraArgs }
  | _ => none

def PollingSettings.decode? (d : ν) : Option PollingSettings := do
  match ← fields? ["interval_ms", "deadline_secs"] d with
  | [interval, deadline] =>
    return {
      intervalMs := ← orDefault SettingDefault.pollIntervalMs word64? interval
      deadlineSecs := ← orDefault none (optional? word64?) deadline }
  | _ => none

def OrchestrationSettings.decode? (d : ν) : Option OrchestrationSettings := do
  match ← fields? ["temp_test_set_prefix"] d with
  | [tempPrefix] =>
    return { tempTestSetPrefix := ← orDefault SettingDefault.tempTestSetPrefix text? tempPrefix }
  | _ => none

def LoggingSettings.decode? (d : ν) : Option LoggingSettings := do
  match ← fields? ["echo", "runtime_log"] d with
  | [echo, runtimeLog] =>
    return {
      echo := ← orDefault SettingDefault.flag flag? echo
      runtimeLog := ← orDefault SettingDefault.flag flag? runtimeLog }
  | _ => none

def Settings.decode? (d : ν) : Option Settings := do
  match ← fields? ["engine", "bootstrap", "polling", "orchestration", "logging"] d with
  | [engine, bootstrap, polling, orchestration, logging] =>
    return {
      engine := ← orDefault {} EngineSettings.decode? engine
      bootstrap := ← orDefault {} BootstrapSettings.decode? bootstrap
      polling := ← orDefault {} PollingSettings.decode? polling
      orchestration := ← orDefault {} OrchestrationSettings.decode? orchestration
      logging := ← orDefault {} LoggingSettings.decode? logging }
  | _ => none

def EngineSettings.toJson (s : EngineSettings) : Json :=
  .obj [("host", .str s.host), ("port", .nat s.port.toNat), ("binding", .str s.binding),
    ("connect_timeout_ms", .nat s.connectTimeoutMs.toNat),
    ("request_timeout_ms", .nat s.requestTimeoutMs.toNat)]

def BootstrapSettings.toJson (s : BootstrapSettings) : Json :=
  .obj [("enabled", .bool s.enabled), ("executables", Json.strings (s.executables.map (·.text))),
    ("startup_grace_secs", .nat s.startupGraceSecs.toNat),
    ("extra_args", Json.strings s.extraArgs)]

def PollingSettings.toJson (s : PollingSettings) : Json :=
  .obj [("interval_ms", .nat s.intervalMs.toNat),
    ("deadline_secs", Json.ofOption (fun n => .nat n.toNat) s.deadlineSecs)]

def OrchestrationSettings.toJson (s : OrchestrationSettings) : Json :=
  .obj [("temp_test_set_prefix", .str s.tempTestSetPrefix)]

def LoggingSettings.toJson (s : LoggingSettings) : Json :=
  .obj [("echo", .bool s.echo), ("runtime_log", .bool s.runtimeLog)]

def Settings.toJson (s : Settings) : Json :=
  .obj [("engine", s.engine.toJson), ("bootstrap", s.bootstrap.toJson),
    ("polling", s.polling.toJson), ("orchestration", s.orchestration.toJson),
    ("logging", s.logging.toJson)]

end GuardedRun
