import GuardedRun.Proofs.JsonText
import GuardedRun.Settings.Load
import Mathlib.Data.Option.Basic

/-! Settings that are given in part. A document may leave out sections, and any fields of a section, and then
they have their defaults; what is written of all settings gives each of them. -/

namespace GuardedRun

namespace Document

variable {ν α β : Type}

/-- A document that is a mapping: for any keys it gives the values that they have, and other keys do no
harm. -/
def Maps [Document ν] (d : ν) (value? : String → Option ν) : Prop :=
  ∀ keys, fields? keys d = some (keys.map value?)

/-- What a mapping gives for a field: nothing, or a value of the type of the field. -/
def Gives (read : ν → Option α) : Option ν → Option α → Prop := Option.Rel fun d a => read d = some a

/-- A field that is left out is the default, and one that is given is what it is read as. -/
theorem orDefault_of_rel {holds : ν → β → Prop} {read : ν → Option α} {f : β → α} {value : Option ν}
    {given : Option β} (hread : ∀ d b, holds d b → read d = some (f b)) (h : Option.Rel holds value given)
    (default : α) : orDefault default read value = some (given.elim default f) := by
  cases h with
  | none => rfl
  | some h => exact hread _ _ h

theorem Gives.orDefault_eq {read : ν → Option α} {value : Option ν} {given : Option α}
    (h : Gives read value given) (default : α) :
    orDefault default read value = some (given.getD default) := by
  rw [orDefault_of_rel (fun _ _ hread => hread) h]
  cases given <;> rfl

end Document

/-- An object is a mapping, whatever else it holds. -/
theorem Json.maps_obj (members : List (String × Json)) :
    Document.Maps (.obj members) fun key => lookup key members :=
  fun _ => rfl

namespace Yaml

theorem filter_key {entries : List (String × Node)} (h : (entries.map Prod.fst).Nodup) (key : String) :
    entries.filter (·.1 = key) = ((entries.lookup key).map fun value => (key, value)).toList := by
  induction entries with
  | nil => rfl
  | cons entry rest ih =>
    obtain ⟨hnew, hrest⟩ := List.nodup_cons.mp h
    by_cases hkey : entry.1 = key
    · have hnone : rest.filter (·.1 = key) = [] := by
        apply List.filter_eq_nil_iff.mpr
        intro other hother hsame
        have hmem := List.mem_map_of_mem (f := Prod.fst) hother
        exact hnew (hkey.trans (of_decide_eq_true hsame).symm ▸ hmem)
      have hsame : (key == entry.1) = true := beq_iff_eq.mpr hkey.symm
      rw [List.filter_cons_of_pos (by simpa using hkey), hnone, List.lookup_cons, hsame, ← hkey]
      rfl
    · have hother : (key == entry.1) = false := beq_eq_false_iff_ne.mpr fun h => hkey h.symm
      rw [List.filter_cons_of_neg (by simpa using hkey), ih hrest, List.lookup_cons, hother]

/-- A mapping whose keys are texts, none of them given twice. -/
theorem maps_mapping {entries : List (Node × Node)} {texts : List (String × Node)}
    (htexts : Node.textEntries? entries = some texts) (hdistinct : (texts.map Prod.fst).Nodup) :
    Document.Maps (Node.mapping entries) fun key => texts.lookup key := by
  have hunique (key : String) : Node.unique? texts key = some (texts.lookup key) := by
    rw [Node.unique?, filter_key hdistinct]
    cases texts.lookup key <;> rfl
  intro keys
  have hall : keys.mapM (Node.unique? texts) = some (keys.map fun key => texts.lookup key) := by
    induction keys with
    | nil => rfl
    | cons key rest ih => simp [hunique, ih]
  change (Node.textEntries? entries >>= fun texts => keys.mapM (Node.unique? texts)) = _
  rw [htexts]
  exact hall

end Yaml

namespace Json

theorem word16?_nat (n : UInt16) : Document.word16? (nat n.toNat) = some n := by
  have hbelow : Document.below? UInt16.size (nat n.toNat) = some n.toNat := if_pos n.toNat_lt
  rw [Document.word16?, hbelow, Option.map_some, UInt16.ofNat_toNat]

theorem word64?_nat (n : UInt64) : Document.word64? (nat n.toNat) = some n := by
  have hbelow : Document.below? UInt64.size (nat n.toNat) = some n.toNat := if_pos n.toNat_lt
  rw [Document.word64?, hbelow, Option.map_some, UInt64.ofNat_toNat]

theorem optional?_word64? (n : Option UInt64) :
    Document.optional? Document.word64? (ofOption (fun n => nat n.toNat) n) = some n := by
  cases n with
  | none => rfl
  | some n =>
    change (Document.word64? (nat n.toNat)).map some = _
    rw [word64?_nat, Option.map_some]

/-- A list is read back when each of its items is. -/
theorem list?_arr {α : Type} {read : Json → Option α} {write : α → Json}
    (hread : ∀ a, read (write a) = some a) (items : List α) :
    Document.list? read (.arr (items.map write)) = some items := by
  have heach : Document.each? read (items.map write) = some items := by
    induction items with
    | nil => rfl
    | cons first rest ih => simp [Document.each?, hread, ih]
  exact heach

theorem list?_strings (texts : List String) :
    Document.list? Document.text? (strings texts) = some texts := by
  have hread (text : String) : Document.text? (Json.str text) = some text := rfl
  exact list?_arr hread texts

theorem list?_paths (paths : List Path) :
    Document.list? (fun d => (Document.text? d).map Path.mk) (strings (paths.map (·.text))) = some paths := by
  have hread (path : Path) : (Document.text? (Json.str path.text)).map Path.mk = some path := rfl
  rw [strings, List.map_map]
  exact list?_arr hread paths

theorem faithful_word64 (n : UInt64) : Faithful (nat n.toNat) := by
  have hbound : n.toNat < UInt64.size := n.toNat_lt
  refine .int ⟨?_, ?_⟩ <;> omega

theorem faithful_word16 (n : UInt16) : Faithful (nat n.toNat) := by
  have hbound : n.toNat < UInt16.size := n.toNat_lt
  have hsizes : UInt16.size < UInt64.size := by decide
  refine .int ⟨?_, ?_⟩ <;> omega

theorem faithful_strings (texts : List String) : Faithful (strings texts) := by
  apply Faithful.arr
  intro item hitem
  obtain ⟨text, -, rfl⟩ := List.mem_map.mp hitem
  exact .str text

end Json

open Document

variable {ν : Type} [Document ν] {d : ν}

namespace EngineSettings

/-- What may be given of the settings of the engine. -/
structure Given where
  host : Option String := none
  port : Option UInt16 := none
  binding : Option String := none
  connectTimeoutMs : Option UInt64 := none
  requestTimeoutMs : Option UInt64 := none

/-- The settings with those replaced that are given. -/
def Given.over (given : Given) (s : EngineSettings) : EngineSettings where
  host := given.host.getD s.host
  port := given.port.getD s.port
  binding := given.binding.getD s.binding
  connectTimeoutMs := given.connectTimeoutMs.getD s.connectTimeoutMs
  requestTimeoutMs := given.requestTimeoutMs.getD s.requestTimeoutMs

/-- All settings are given. -/
def Given.all (s : EngineSettings) : Given :=
  ⟨some s.host, some s.port, some s.binding, some s.connectTimeoutMs, some s.requestTimeoutMs⟩

/-- A mapping gives these settings of the section. -/
inductive Given.In (given : Given) (d : ν) : Prop
  | mapping {value?} (maps : Maps d value?)
    (host : Gives text? (value? "host") given.host)
    (port : Gives word16? (value? "port") given.port)
    (binding : Gives text? (value? "binding") given.binding)
    (connectTimeoutMs : Gives word64? (value? "connect_timeout_ms") given.connectTimeoutMs)
    (requestTimeoutMs : Gives word64? (value? "request_timeout_ms") given.requestTimeoutMs)

theorem Given.In.decode?_eq {given : Given} (h : given.In d) : decode? d = some (given.over {}) := by
  cases h with
  | mapping maps host port binding connectTimeoutMs requestTimeoutMs =>
    simp only [decode?, maps _, List.map_cons, List.map_nil, Option.bind_eq_bind, Option.bind_some,
      host.orDefault_eq, port.orDefault_eq, binding.orDefault_eq, connectTimeoutMs.orDefault_eq,
      requestTimeoutMs.orDefault_eq]
    rfl

theorem in_toJson (s : EngineSettings) : (Given.all s).In s.toJson :=
  .mapping (Json.maps_obj _) (.some rfl) (.some (Json.word16?_nat s.port)) (.some rfl)
    (.some (Json.word64?_nat s.connectTimeoutMs)) (.some (Json.word64?_nat s.requestTimeoutMs))

end EngineSettings

namespace BootstrapSettings

/-- What may be given of the settings of the start of the engine. -/
structure Given where
  enabled : Option Bool := none
  executables : Option (List Path) := none
  startupGraceSecs : Option UInt64 := none
  extraArgs : Option (List String) := none

/-- The settings with those replaced that are given. -/
def Given.over (given : Given) (s : BootstrapSettings) : BootstrapSettings where
  enabled := given.enabled.getD s.enabled
  executables := given.executables.getD s.executables
  startupGraceSecs := given.startupGraceSecs.getD s.startupGraceSecs
  extraArgs := given.extraArgs.getD s.extraArgs

/-- All settings are given. -/
def Given.all (s : BootstrapSettings) : Given :=
  ⟨some s.enabled, some s.executables, some s.startupGraceSecs, some s.extraArgs⟩

/-- A mapping gives these settings of the section. -/
inductive Given.In (given : Given) (d : ν) : Prop
  | mapping {value?} (maps : Maps d value?)
    (enabled : Gives flag? (value? "enabled") given.enabled)
    (executables : Gives (list? fun d => (text? d).map Path.mk) (value? "executables") given.executables)
    (startupGraceSecs : Gives word64? (value? "startup_grace_secs") given.startupGraceSecs)
    (extraArgs : Gives (list? text?) (value? "extra_args") given.extraArgs)

theorem Given.In.decode?_eq {given : Given} (h : given.In d) : decode? d = some (given.over {}) := by
  cases h with
  | mapping maps enabled executables startupGraceSecs extraArgs =>
    simp only [decode?, maps _, List.map_cons, List.map_nil, Option.bind_eq_bind, Option.bind_some,
      enabled.orDefault_eq, executables.orDefault_eq, startupGraceSecs.orDefault_eq, extraArgs.orDefault_eq]
    rfl

theorem in_toJson (s : BootstrapSettings) : (Given.all s).In s.toJson :=
  .mapping (Json.maps_obj _) (.some rfl) (.some (Json.list?_paths s.executables))
    (.some (Json.word64?_nat s.startupGraceSecs)) (.some (Json.list?_strings s.extraArgs))

end BootstrapSettings

namespace PollingSettings

/-- What may be given of the settings of the waiting. -/
structure Given where
  intervalMs : Option UInt64 := none
  deadlineSecs : Option (Option UInt64) := none

/-- The settings with those replaced that are given. -/
def Given.over (given : Given) (s : PollingSettings) : PollingSettings where
  intervalMs := given.intervalMs.getD s.intervalMs
  deadlineSecs := given.deadlineSecs.getD s.deadlineSecs

/-- All settings are given. -/
def Given.all (s : PollingSettings) : Given :=
  ⟨some s.intervalMs, some s.deadlineSecs⟩

/-- A mapping gives these settings of the section. -/
inductive Given.In (given : Given) (d : ν) : Prop
  | mapping {value?} (maps : Maps d value?)
    (intervalMs : Gives word64? (value? "interval_ms") given.intervalMs)
    (deadlineSecs : Gives (optional? word64?) (value? "deadline_secs") given.deadlineSecs)

theorem Given.In.decode?_eq {given : Given} (h : given.In d) : decode? d = some (given.over {}) := by
  cases h with
  | mapping maps intervalMs deadlineSecs =>
    simp only [decode?, maps _, List.map_cons, List.map_nil, Option.bind_eq_bind, Option.bind_some,
      intervalMs.orDefault_eq, deadlineSecs.orDefault_eq]
    rfl

theorem in_toJson (s : PollingSettings) : (Given.all s).In s.toJson :=
  .mapping (Json.maps_obj _) (.some (Json.word64?_nat s.intervalMs))
    (.some (Json.optional?_word64? s.deadlineSecs))

end PollingSettings

namespace OrchestrationSettings

/-- What may be given of the settings of orchestrations. -/
structure Given where
  tempTestSetPrefix : Option String := none

/-- The settings with those replaced that are given. -/
def Given.over (given : Given) (s : OrchestrationSettings) : OrchestrationSettings where
  tempTestSetPrefix := given.tempTestSetPrefix.getD s.tempTestSetPrefix

/-- All settings are given. -/
def Given.all (s : OrchestrationSettings) : Given :=
  ⟨some s.tempTestSetPrefix⟩

/-- A mapping gives these settings of the section. -/
inductive Given.In (given : Given) (d : ν) : Prop
  | mapping {value?} (maps : Maps d value?)
    (tempTestSetPrefix : Gives text? (value? "temp_test_set_prefix") given.tempTestSetPrefix)

theorem Given.In.decode?_eq {given : Given} (h : given.In d) : decode? d = some (given.over {}) := by
  cases h with
  | mapping maps tempTestSetPrefix =>
    simp only [decode?, maps _, List.map_cons, List.map_nil, Option.bind_eq_bind, Option.bind_some,
      tempTestSetPrefix.orDefault_eq]
    rfl

theorem in_toJson (s : OrchestrationSettings) : (Given.all s).In s.toJson :=
  .mapping (Json.maps_obj _) (.some rfl)

end OrchestrationSettings

namespace LoggingSettings

/-- What may be given of the settings of the log. -/
structure Given where
  echo : Option Bool := none
  runtimeLog : Option Bool := none

/-- The settings with those replaced that are given. -/
def Given.over (given : Given) (s : LoggingSettings) : LoggingSettings where
  echo := given.echo.getD s.echo
  runtimeLog := given.runtimeLog.getD s.runtimeLog

/-- All settings are given. -/
def Given.all (s : LoggingSettings) : Given :=
  ⟨some s.echo, some s.runtimeLog⟩

/-- A mapping gives these settings of the section. -/
inductive Given.In (given : Given) (d : ν) : Prop
  | mapping {value?} (maps : Maps d value?)
    (echo : Gives flag? (value? "echo") given.echo)
    (runtimeLog : Gives flag? (value? "runtime_log") given.runtimeLog)

theorem Given.In.decode?_eq {given : Given} (h : given.In d) : decode? d = some (given.over {}) := by
  cases h with
  | mapping maps echo runtimeLog =>
    simp only [decode?, maps _, List.map_cons, List.map_nil, Option.bind_eq_bind, Option.bind_some,
      echo.orDefault_eq, runtimeLog.orDefault_eq]
    rfl

theorem in_toJson (s : LoggingSettings) : (Given.all s).In s.toJson :=
  .mapping (Json.maps_obj _) (.some rfl) (.some rfl)

end LoggingSettings

namespace Settings

/-- What may be given of the settings: any of the sections, and of a section any of its fields. -/
structure Given where
  engine : Option EngineSettings.Given := none
  bootstrap : Option BootstrapSettings.Given := none
  polling : Option PollingSettings.Given := none
  orchestration : Option OrchestrationSettings.Given := none
  logging : Option LoggingSettings.Given := none

/-- The settings with those replaced that are given. -/
def Given.over (given : Given) (s : Settings) : Settings where
  engine := (given.engine.getD {}).over s.engine
  bootstrap := (given.bootstrap.getD {}).over s.bootstrap
  polling := (given.polling.getD {}).over s.polling
  orchestration := (given.orchestration.getD {}).over s.orchestration
  logging := (given.logging.getD {}).over s.logging

/-- All settings are given. -/
def Given.all (s : Settings) : Given where
  engine := some (.all s.engine)
  bootstrap := some (.all s.bootstrap)
  polling := some (.all s.polling)
  orchestration := some (.all s.orchestration)
  logging := some (.all s.logging)

/-- A mapping gives these settings, section by section. -/
inductive Given.In (given : Given) (d : ν) : Prop
  | mapping {value?} (maps : Maps d value?)
    (engine : Option.Rel (fun d part => part.In d) (value? "engine") given.engine)
    (bootstrap : Option.Rel (fun d part => part.In d) (value? "bootstrap") given.bootstrap)
    (polling : Option.Rel (fun d part => part.In d) (value? "polling") given.polling)
    (orchestration : Option.Rel (fun d part => part.In d) (value? "orchestration") given.orchestration)
    (logging : Option.Rel (fun d part => part.In d) (value? "logging") given.logging)

/-- A section that is left out has all its defaults. -/
theorem Given.In.decode?_eq {given : Given} (h : given.In d) : decode? d = some (given.over {}) := by
  cases h with
  | mapping maps engine bootstrap polling orchestration logging =>
    have hengine := orDefault_of_rel (fun _ _ h => EngineSettings.Given.In.decode?_eq h) engine {}
    have hbootstrap := orDefault_of_rel (fun _ _ h => BootstrapSettings.Given.In.decode?_eq h) bootstrap {}
    have hpolling := orDefault_of_rel (fun _ _ h => PollingSettings.Given.In.decode?_eq h) polling {}
    have horchestration :=
      orDefault_of_rel (fun _ _ h => OrchestrationSettings.Given.In.decode?_eq h) orchestration {}
    have hlogging := orDefault_of_rel (fun _ _ h => LoggingSettings.Given.In.decode?_eq h) logging {}
    simp only [decode?, maps _, List.map_cons, List.map_nil, Option.bind_eq_bind, Option.bind_some, hengine,
      hbootstrap, hpolling, horchestration, hlogging]
    obtain ⟨_ | _, _ | _, _ | _, _ | _, _ | _⟩ := given <;> rfl

/-- What is written gives every setting. -/
theorem in_toJson (s : Settings) : (Given.all s).In s.toJson :=
  .mapping (Json.maps_obj _) (.some s.engine.in_toJson) (.some s.bootstrap.in_toJson)
    (.some s.polling.in_toJson) (.some s.orchestration.in_toJson) (.some s.logging.in_toJson)

theorem decode?_toJson (s : Settings) : decode? s.toJson = some s := by
  have hall : (Given.all s).over {} = s := rfl
  rw [s.in_toJson.decode?_eq, hall]

/-- All that is written of settings can be told by JSON. -/
theorem faithful_toJson (s : Settings) : s.toJson.Faithful := by
  have hengine : s.engine.toJson.Faithful := by
    have hkeys : ["host", "port", "binding", "connect_timeout_ms", "request_timeout_ms"].Nodup := by decide
    refine .obj hkeys ?_
    simp [Json.Faithful.str, Json.faithful_word16, Json.faithful_word64]
  have hbootstrap : s.bootstrap.toJson.Faithful := by
    have hkeys : ["enabled", "executables", "startup_grace_secs", "extra_args"].Nodup := by decide
    refine .obj hkeys ?_
    simp [Json.Faithful.bool, Json.faithful_strings, Json.faithful_word64]
  have hpolling : s.polling.toJson.Faithful := by
    have hkeys : ["interval_ms", "deadline_secs"].Nodup := by decide
    have hdeadline : (Json.ofOption (fun n => .nat n.toNat) s.polling.deadlineSecs).Faithful := by
      cases s.polling.deadlineSecs with
      | none => exact .null
      | some n => exact Json.faithful_word64 n
    refine .obj hkeys ?_
    simp [hdeadline, Json.faithful_word64]
  have horchestration : s.orchestration.toJson.Faithful := by
    refine .obj (List.nodup_singleton _) ?_
    simp [Json.Faithful.str]
  have hlogging : s.logging.toJson.Faithful := by
    have hkeys : ["echo", "runtime_log"].Nodup := by decide
    refine .obj hkeys ?_
    simp [Json.Faithful.bool]
  have hkeys : ["engine", "bootstrap", "polling", "orchestration", "logging"].Nodup := by decide
  refine .obj hkeys ?_
  simp [hengine, hbootstrap, hpolling, horchestration, hlogging]

/-- From a mapping that gives any of the settings, what is read is the defaults with those replaced that are
given; a mapping that gives none is the defaults of the settings, or of the section that it stands for.
Objects are mappings, and so are YAML mappings with texts for keys, each once. What is written of settings is
read as them, from the value and from its text. -/
theorem defaults_overlaid :
    (∀ (ν : Type) [Document ν] (d : ν) (given : Given), given.In d → decode? d = some (given.over {})) ∧
    (∀ (ν : Type) [Document ν] (d : ν), Maps d (fun _ => none) → decode? d = some {} ∧
      EngineSettings.decode? d = some {} ∧ BootstrapSettings.decode? d = some {} ∧
      PollingSettings.decode? d = some {} ∧ OrchestrationSettings.decode? d = some {} ∧
      LoggingSettings.decode? d = some {}) ∧
    (∀ members, Maps (Json.obj members) fun key => Json.lookup key members) ∧
    (∀ entries texts, Yaml.Node.textEntries? entries = some texts → (texts.map Prod.fst).Nodup →
      Maps (Yaml.Node.mapping entries) fun key => texts.lookup key) ∧
    ∀ s : Settings, decode? s.toJson = some s ∧ (Json.parse s.toJson.render).bind decode? = some s := by
  refine ⟨fun _ _ _ _ h => h.decode?_eq, fun ν _ d hempty => ?_, Json.maps_obj,
    fun _ _ htexts hdistinct => Yaml.maps_mapping htexts hdistinct, fun s => ⟨s.decode?_toJson, ?_⟩⟩
  · have hsettings : ({} : Given).In d := .mapping hempty .none .none .none .none .none
    have hengine : ({} : EngineSettings.Given).In d := .mapping hempty .none .none .none .none .none
    have hbootstrap : ({} : BootstrapSettings.Given).In d := .mapping hempty .none .none .none .none
    have hpolling : ({} : PollingSettings.Given).In d := .mapping hempty .none .none
    have horchestration : ({} : OrchestrationSettings.Given).In d := .mapping hempty .none
    have hlogging : ({} : LoggingSettings.Given).In d := .mapping hempty .none .none
    exact ⟨hsettings.decode?_eq, hengine.decode?_eq, hbootstrap.decode?_eq, hpolling.decode?_eq,
      horchestration.decode?_eq, hlogging.decode?_eq⟩
  · rw [s.faithful_toJson.parse_render]
    exact s.decode?_toJson

/-- A document that names another host and port, bounds the waiting, and has a key of no setting. -/
def buildAgent : Yaml.Node :=
  .mapping [(.scalar "engine" true, .mapping [(.scalar "host" true, .scalar "build-agent-7" true),
      (.scalar "comment" true, .scalar "rack 3" true), (.scalar "port" true, .scalar "2099" true)]),
    (.scalar "polling" true, .mapping [(.scalar "deadline_secs" true, .scalar "7200" true)])]

theorem buildAgent_overlaid : decode? buildAgent = some {
    engine := { host := "build-agent-7", port := 2099 }, polling := { deadlineSecs := some 7200 } } := by
  have hgiven : Given.In { engine := some { host := some "build-agent-7", port := some 2099 }
                           polling := some { deadlineSecs := some (some 7200) } } buildAgent :=
    .mapping (Yaml.maps_mapping rfl (by decide))
      (.some (.mapping (Yaml.maps_mapping rfl (by decide)) (.some rfl) (.some rfl) .none .none .none)) .none
      (.some (.mapping (Yaml.maps_mapping rfl (by decide)) .none (.some rfl))) .none .none
  exact defaults_overlaid.1 _ _ _ hgiven

end Settings

end GuardedRun
