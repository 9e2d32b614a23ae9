import GuardedRun.Settings.Codec

/-!
Settings together with what follows from them: where the engine is, how long things may take, how
the engine is started and waited for.
-/

namespace GuardedRun.Settings

/-- A duration in milliseconds, which a word of 64 bits has to hold. -/
def milliseconds (n : Nat) : Json := .nat (n % UInt64.size)

def bootstrapSummary (b : Bootstrap) : Json :=
  .obj [("executables", Json.strings (b.executables.map (·.text))),
    ("grace_ms", milliseconds b.grace), ("extra_args", Json.strings b.extraArgs)]

def pollingSummary (p : Polling) : Json :=
  .obj [("interval_ms", milliseconds p.interval),
    ("deadline_ms", Json.ofOption milliseconds p.deadline)]

/-- The members of an object that describes settings. -/
def summary (s : Settings) : List (String × Json) :=
  [("settings", s.toJson), ("endpoint", .str s.endpoint.text), ("base_url", .str s.endpoint.baseUrl),
    ("timeouts_ms", .arr [milliseconds s.timeouts.connect, milliseconds s.timeouts.request]),
    ("bootstrap", bootstrapSummary s.bootstrapOptions), ("poll", pollingSummary s.pollingOptions)]

end GuardedRun.Settings
