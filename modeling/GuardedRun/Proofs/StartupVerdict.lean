import GuardedRun.Proofs.Departure
import GuardedRun.Proofs.Startup

/-! What a run that ensures an engine may come to. The engine is looked up once or twice and started
once at most; the outcomes of these, with the looks at the flag, tell how the run ends. -/

namespace GuardedRun

variable {σ : Type} {env : Environment σ}

open Session
open Event (marker)

/-- A program that was started, with its process id or the reason why it did not start. -/
structure Launch where
  executable : Path
  arguments : List String
  result : Except String Nat

namespace Event

/-- What a lookup of the engine came to. -/
def lookup? : Event → Option (Except EngineError Unit)
  | asked .ping a => some a
  | _ => none

def launch? : Event → Option Launch
  | launched executable arguments result => some ⟨executable, arguments, result⟩
  | _ => none

/-- The flag is looked at after the event: the engine has been started, or a slice of the time that it
is given is over. -/
def inGrace : Event → Bool
  | launched _ _ (.ok _) => true
  | slept _ => true
  | _ => false

def lookups (events : List Event) : List (Except EngineError Unit) := events.filterMap lookup?

def launches (events : List Event) : List Launch := events.filterMap launch?

/-- The engine was started. -/
def Launched (events : List Event) : Prop := ∃ l ∈ launches events, ∃ pid, l.result = .ok pid

/-- A look at the flag finds it up, in the time that an engine is given or at its end. -/
def SightedInGrace (flag : Bool) (events : List Event) : Prop :=
  ∃ before e after, events = before ++ e :: after ∧ e.inGrace = true ∧
    (flag = true ∨ before.any isInterrupt = true ∨ ∃ rest, after = interrupted :: rest)

end Event

/-- How a run that ensures an engine began, went on and ended, from a state of the outside and with the
flag up or down. -/
structure Connected (env : Environment σ) (endpoint : Endpoint) (bootstrap : Bootstrap) (s : σ)
    (flag : Bool) (events : List Event) (r : Except ConnectError Unit) : Prop where
  /-- The environment bears out what happened. -/
  genuine : env.Genuine s events
  /-- There are one or two lookups, and no other calls. -/
  calls : (events.filterMap Event.exchange?).map (·.call) = [.ping] ∨
    (events.filterMap Event.exchange?).map (·.call) = [.ping, .ping]
  launches : (Event.launches events).length ≤ 1
  /-- A start comes right after a lookup that failed, and takes the first candidate that is a file. -/
  launched : ∀ before executable arguments result after,
    events = before ++ .launched executable arguments result :: after →
      (∃ e raised, before = .asked .ping (.error e) :: marker raised) ∧
      Bootstrap.Picks (env.isFile · (env.replay s before)) bootstrap.executables executable ∧
      arguments = Bootstrap.arguments endpoint bootstrap.extraArgs
  /-- Another lookup comes right after a start that succeeded and the whole time that was to be given,
  with the flag down. -/
  retried : ∀ before a after, events = before ++ .asked .ping a :: after → before ≠ [] →
    flag = false ∧ ∃ e executable arguments pid, ∃ naps : List Nat,
      before = .asked .ping (.error e) :: .launched executable arguments (.ok pid) ::
        naps.map .slept ∧
      naps.sum = bootstrap.grace
  running : r = .ok () ↔ (Event.lookups events)[0]? = some (.ok ()) ∨
    Event.Launched events ∧ ¬ Event.SightedInGrace flag events ∧
      (Event.lookups events)[1]? = some (.ok ())
  interrupted : r = .error .interrupted ↔
    Event.Launched events ∧ Event.SightedInGrace flag events
  failed : ∀ place reason, r = .error (.bootstrapFailed place reason) ↔ place = endpoint.text ∧
    (∃ e, (Event.lookups events)[0]? = some (.error e)) ∧
    ((∀ path ∈ bootstrap.executables, env.isFile path (env.answer .ping s).2 = false) ∧
        reason = Bootstrap.noExecutableReason bootstrap.executables ∨
      (∃ l ∈ Event.launches events, ∃ why, l.result = .error why ∧
        reason = s!"failed to start {l.executable}: {why}") ∨
      Event.Launched events ∧ ¬ Event.SightedInGrace flag events ∧
        ∃ e, (Event.lookups events)[1]? = some (.error e) ∧
          reason = s!"engine still unreachable after startup: {e.lookupReason}")
  /-- A run ends in no other way. -/
  exhausted : r = .ok () ∨ r = .error .interrupted ∨
    ∃ reason, r = .error (.bootstrapFailed endpoint.text reason)

/-- What was looked up and started, whether there was no candidate, whether an interrupt was seen, and
what they make of a run. -/
inductive StartupVerdict (endpoint : Endpoint) (bootstrap : Bootstrap) (missing sighted : Prop) :
    List (Except EngineError Unit) → List Launch → Except ConnectError Unit → Prop
  | found : StartupVerdict endpoint bootstrap missing sighted [.ok ()] [] (.ok ())
  | unequipped (e) (unequipped : missing) :
    StartupVerdict endpoint bootstrap missing sighted [.error e] []
      (.error (.bootstrapFailed endpoint.text (Bootstrap.noExecutableReason bootstrap.executables)))
  | refused (e executable arguments why) (equipped : ¬ missing) :
    StartupVerdict endpoint bootstrap missing sighted [.error e]
      [⟨executable, arguments, .error why⟩]
      (.error (.bootstrapFailed endpoint.text s!"failed to start {executable}: {why}"))
  | interrupted (e executable arguments pid) (equipped : ¬ missing) (seen : sighted) :
    StartupVerdict endpoint bootstrap missing sighted [.error e] [⟨executable, arguments, .ok pid⟩]
      (.error .interrupted)
  | retried (e executable arguments pid a) (equipped : ¬ missing) (unseen : ¬ sighted) :
    StartupVerdict endpoint bootstrap missing sighted [.error e, a]
      [⟨executable, arguments, .ok pid⟩] (Bootstrap.verdict endpoint a)

namespace StartupVerdict

variable {endpoint : Endpoint} {bootstrap : Bootstrap} {missing sighted : Prop}
  {lookups : List (Except EngineError Unit)} {launches : List Launch} {r : Except ConnectError Unit}

theorem running_iff (h : StartupVerdict endpoint bootstrap missing sighted lookups launches r) :
    r = .ok () ↔ lookups[0]? = some (.ok ()) ∨
      (∃ l ∈ launches, ∃ pid, l.result = .ok pid) ∧ ¬ sighted ∧ lookups[1]? = some (.ok ()) := by
  cases h with
  | found | unequipped | refused => simp
  | interrupted e executable arguments pid equipped seen => simp [seen]
  | retried e executable arguments pid a equipped unseen => cases a <;> simp [Bootstrap.verdict, unseen]

theorem interrupted_iff (h : StartupVerdict endpoint bootstrap missing sighted lookups launches r) :
    r = .error .interrupted ↔ (∃ l ∈ launches, ∃ pid, l.result = .ok pid) ∧ sighted := by
  cases h with
  | found | unequipped | refused => simp
  | interrupted e executable arguments pid equipped seen => simp [seen]
  | retried e executable arguments pid a equipped unseen => cases a <;> simp [Bootstrap.verdict, unseen]

theorem failed_iff (h : StartupVerdict endpoint bootstrap missing sighted lookups launches r)
    (place reason : String) :
    r = .error (.bootstrapFailed place reason) ↔ place = endpoint.text ∧
      (∃ e, lookups[0]? = some (.error e)) ∧
      (missing ∧ reason = Bootstrap.noExecutableReason bootstrap.executables ∨
        (∃ l ∈ launches, ∃ why, l.result = .error why ∧
          reason = s!"failed to start {l.executable}: {why}") ∨
        (∃ l ∈ launches, ∃ pid, l.result = .ok pid) ∧ ¬ sighted ∧
          ∃ e, lookups[1]? = some (.error e) ∧
            reason = s!"engine still unreachable after startup: {e.lookupReason}") := by
  cases h with
  | found => simp
  | unequipped e unequipped => simp [unequipped, eq_comm]
  | refused e executable arguments why equipped => simp [equipped, eq_comm]
  | interrupted e executable arguments pid equipped seen => simp [equipped, seen]
  | retried e executable arguments pid a equipped unseen =>
    cases a <;> simp [Bootstrap.verdict, equipped, unseen, eq_comm]

theorem exhausted (h : StartupVerdict endpoint bootstrap missing sighted lookups launches r) :
    r = .ok () ∨ r = .error .interrupted ∨
      ∃ reason, r = .error (.bootstrapFailed endpoint.text reason) := by
  cases h with
  | found => exact .inl rfl
  | interrupted => exact .inr (.inl rfl)
  | unequipped | refused => exact .inr (.inr ⟨_, rfl⟩)
  | retried e executable arguments pid a =>
    cases a with
    | ok u => exact .inl rfl
    | error e' => exact .inr (.inr ⟨_, rfl⟩)

end StartupVerdict

namespace Event

@[simp] theorem lookups_append (a b : List Event) : lookups (a ++ b) = lookups a ++ lookups b :=
  List.filterMap_append

@[simp] theorem launches_append (a b : List Event) : launches (a ++ b) = launches a ++ launches b :=
  List.filterMap_append

@[simp] theorem lookups_asked (a : Except EngineError Unit) (rest : List Event) :
    lookups (.asked .ping a :: rest) = a :: lookups rest := rfl

@[simp] theorem launches_asked (call : Call) (a : Except EngineError call.Reply)
    (rest : List Event) : launches (.asked call a :: rest) = launches rest := rfl

@[simp] theorem lookups_launched (executable : Path) (arguments : List String)
    (result : Except String Nat) (rest : List Event) :
    lookups (.launched executable arguments result :: rest) = lookups rest := rfl

@[simp] theorem launches_launched (executable : Path) (arguments : List String)
    (result : Except String Nat) (rest : List Event) :
    launches (.launched executable arguments result :: rest) =
      ⟨executable, arguments, result⟩ :: launches rest := rfl

/-- The events are the passing of time and interrupts alone. -/
def Idle (events : List Event) : Prop := ∀ e ∈ events, (∃ n, e = slept n) ∨ e = interrupted

theorem idle_marker (raised : Bool) : Idle (marker raised) := fun _ h => .inr (eq_of_mem_marker h)

theorem idle_naps (naps : List Nat) : Idle (naps.map slept) := by
  intro e h
  obtain ⟨n, -, rfl⟩ := List.mem_map.mp h
  exact .inl ⟨n, rfl⟩

theorem Idle.append {a b : List Event} (ha : Idle a) (hb : Idle b) : Idle (a ++ b) :=
  List.forall_mem_append.mpr ⟨ha, hb⟩

theorem Idle.filterMap_eq_nil {α : Type} {f : Event → Option α} {events : List Event}
    (h : Idle events) (hslept : ∀ n, f (slept n) = none) (hinterrupted : f interrupted = none) :
    events.filterMap f = [] := by
  refine List.filterMap_eq_nil_iff.mpr fun e he => ?_
  rcases h e he with ⟨n, rfl⟩ | rfl
  · exact hslept n
  · exact hinterrupted

theorem Idle.exchanges {events : List Event} (h : Idle events) : events.filterMap exchange? = [] :=
  h.filterMap_eq_nil (fun _ => rfl) rfl

theorem Idle.lookups {events : List Event} (h : Idle events) : lookups events = [] :=
  h.filterMap_eq_nil (fun _ => rfl) rfl

theorem Idle.launches {events : List Event} (h : Idle events) : launches events = [] :=
  h.filterMap_eq_nil (fun _ => rfl) rfl

theorem Idle.asked_not_mem {events : List Event} (h : Idle events) (call : Call)
    (a : Except EngineError call.Reply) : .asked call a ∉ events := by
  intro hmem
  rcases h _ hmem with ⟨n, hn⟩ | hn <;> cases hn

theorem Idle.launched_not_mem {events : List Event} (h : Idle events) (executable : Path)
    (arguments : List String) (result : Except String Nat) :
    .launched executable arguments result ∉ events := by
  intro hmem
  rcases h _ hmem with ⟨n, hn⟩ | hn <;> cases hn

end Event

open Event (Idle)

section

variable {endpoint : Endpoint} {bootstrap : Bootstrap} {s : σ} {flag : Bool} {events : List Event}
  {r : Except ConnectError Unit}

/-- A run up to its start, which it may not come to, and the start with the rest. -/
theorem Starting.parts (h : Starting env endpoint bootstrap s flag events r) :
    events = [] ∨ ∃ executable result rest, Idle rest ∧
      events = .launched executable (Bootstrap.arguments endpoint bootstrap.extraArgs) result ::
        rest ∧
      Bootstrap.Picks (env.isFile · s) bootstrap.executables executable := by
  cases h with
  | unequipped => exact .inl rfl
  | refused executable reason raised picked =>
    exact .inr ⟨executable, _, _, Event.idle_marker raised, rfl, picked⟩
  | interrupted executable pid raised nap picked woken =>
    exact .inr ⟨executable, _, _, (Event.idle_marker raised).append woken.kinds, rfl, picked⟩
  | passed executable pid naps picked =>
    exact .inr ⟨executable, _, _, Event.idle_naps naps, rfl, picked⟩

theorem Bootstrap.Picks.not_missing {isFile : Path → Bool} {candidates : List Path}
    {executable : Path} (h : Picks isFile candidates executable) :
    ¬ ∀ path ∈ candidates, isFile path = false := by
  obtain ⟨skipped, later, rfl, hfile, -⟩ := h
  intro hmissing
  have hfalse := hmissing executable (by simp)
  rw [hfile] at hfalse
  cases hfalse

/-- The events of a run in their order: without a start, with one, with another lookup after it. -/
inductive Connecting.Shape (env : Environment σ) (endpoint : Endpoint) (bootstrap : Bootstrap) (s : σ)
    (flag : Bool) : List Event → Prop
  | settled (a rest) (idle : Idle rest) :
    Connecting.Shape env endpoint bootstrap s flag (.asked .ping a :: rest)
  | launched (e raised executable result rest) (idle : Idle rest)
    (picked : Bootstrap.Picks (env.isFile · (env.answer .ping s).2) bootstrap.executables executable) :
    Connecting.Shape env endpoint bootstrap s flag ((.asked .ping (.error e) :: marker raised) ++
      .launched executable (Bootstrap.arguments endpoint bootstrap.extraArgs) result :: rest)
  | retried (e executable pid) (naps : List Nat) (a raised)
    (picked : Bootstrap.Picks (env.isFile · (env.answer .ping s).2) bootstrap.executables executable)
    (down : flag = false) (slept : naps.sum = bootstrap.grace) :
    Connecting.Shape env endpoint bootstrap s flag
      ([.asked .ping (.error e)] ++
        .launched executable (Bootstrap.arguments endpoint bootstrap.extraArgs) (.ok pid) ::
          (naps.map .slept ++ .asked .ping a :: marker raised))

namespace Connecting

theorem shape (h : Connecting env endpoint bootstrap s flag events r) :
    Shape env endpoint bootstrap s flag events := by
  cases h with
  | found raised => exact .settled _ _ (Event.idle_marker raised)
  | unstarted e raised starting fault start =>
    rcases start.parts with rfl | ⟨executable, result, rest, hidle, rfl, hpicks⟩
    · rw [List.append_nil]
      exact .settled _ _ (Event.idle_marker raised)
    · exact .launched e raised executable result rest hidle hpicks
  | retried e starting a raised start =>
    cases start with
    | passed executable pid naps picked down slept =>
      exact .retried e executable pid naps a raised picked down slept

namespace Shape

theorem calls (h : Shape env endpoint bootstrap s flag events) :
    (events.filterMap Event.exchange?).map (·.call) = [.ping] ∨
      (events.filterMap Event.exchange?).map (·.call) = [.ping, .ping] := by
  have hasked (a : Except EngineError Unit) (rest : List Event) :
      (Event.asked .ping a :: rest).filterMap Event.exchange? =
        ⟨.ping, a⟩ :: rest.filterMap Event.exchange? := rfl
  have hlaunched (executable : Path) (arguments : List String) (result : Except String Nat)
      (rest : List Event) :
      (Event.launched executable arguments result :: rest).filterMap Event.exchange? =
        rest.filterMap Event.exchange? := rfl
  cases h with
  | settled a rest idle =>
    left
    rw [hasked, idle.exchanges]
    rfl
  | launched e raised executable result rest idle =>
    left
    rw [List.filterMap_append, hasked, hlaunched, idle.exchanges, Event.exchanges_marker]
    rfl
  | retried e executable pid naps a raised =>
    right
    rw [List.filterMap_append, hasked, hlaunched, List.filterMap_append, hasked, exchanges_naps,
      Event.exchanges_marker]
    rfl

theorem launches (h : Shape env endpoint bootstrap s flag events) :
    (Event.launches events).length ≤ 1 := by
  have hmarker (raised : Bool) := (Event.idle_marker raised).launches
  cases h with
  | settled a rest idle => simp [idle.launches]
  | launched e raised executable result rest idle => simp [idle.launches, hmarker]
  | retried e executable pid naps a raised => simp [(Event.idle_naps naps).launches, hmarker]

theorem launched_split (h : Shape env endpoint bootstrap s flag events) {before after : List Event}
    {executable : Path} {arguments : List String} {result : Except String Nat}
    (hsplit : events = before ++ .launched executable arguments result :: after) :
    (∃ e raised, before = .asked .ping (.error e) :: marker raised) ∧
      Bootstrap.Picks (env.isFile · (env.replay s before)) bootstrap.executables executable ∧
      arguments = Bootstrap.arguments endpoint bootstrap.extraArgs := by
  have hmarker (raised : Bool) := (Event.idle_marker raised).launched_not_mem executable arguments result
  have hbefore (e : EngineError) (raised : Bool) : .launched executable arguments result ∉
      Event.asked .ping (.error e) :: marker raised := by
    simp [hmarker]
  have hreplay (e : EngineError) (raised : Bool) :
      env.replay s (.asked .ping (.error e) :: marker raised) = (env.answer .ping s).2 := by
    cases raised <;> rfl
  cases h with
  | settled a rest idle =>
    have hnone : .launched executable arguments result ∉ Event.asked .ping a :: rest := by
      simp [idle.launched_not_mem]
    rw [hsplit] at hnone
    exact absurd (List.mem_append_right _ List.mem_cons_self) hnone
  | launched e raised executable' result' rest idle picked =>
    -- there is only one launch to split at
    obtain ⟨rfl, hsame, -⟩ :=
      parts_of_split (hbefore e raised) (idle.launched_not_mem _ _ _) hsplit
    cases hsame
    refine ⟨⟨e, raised, rfl⟩, ?_, rfl⟩
    rwa [hreplay]
  | retried e executable' pid naps a raised picked =>
    have hafter : .launched executable arguments result ∉
        naps.map Event.slept ++ .asked .ping a :: marker raised := by
      simp [hmarker]
    obtain ⟨rfl, hsame, -⟩ := parts_of_split (hbefore e false) hafter hsplit
    cases hsame
    exact ⟨⟨e, false, rfl⟩, picked, rfl⟩

theorem retried_split (h : Shape env endpoint bootstrap s flag events) {before after : List Event}
    {a : Except EngineError Unit} (hsplit : events = before ++ .asked .ping a :: after)
    (hbefore : before ≠ []) :
    flag = false ∧ ∃ e executable arguments pid, ∃ naps : List Nat,
      before = .asked .ping (.error e) :: .launched executable arguments (.ok pid) ::
        naps.map .slept ∧
      naps.sum = bootstrap.grace := by
  obtain ⟨first, before, rfl⟩ := List.exists_cons_of_ne_nil hbefore
  have hmarker (raised : Bool) := (Event.idle_marker raised).asked_not_mem .ping a
  -- a lookup further on stands behind a launch, where time passes before it
  have habsent {rest : List Event} (hnone : .asked .ping a ∉ rest)
      (hrest : rest = before ++ .asked .ping a :: after) : False := by
    rw [hrest] at hnone
    exact hnone (by simp)
  cases h with
  | settled a' rest idle =>
    exact (habsent (idle.asked_not_mem .ping a) (List.cons.inj hsplit).2).elim
  | launched e raised executable result rest idle =>
    have hnone : .asked .ping a ∉ marker raised ++ .launched executable
        (Bootstrap.arguments endpoint bootstrap.extraArgs) result :: rest := by
      simp [hmarker, idle.asked_not_mem]
    exact (habsent hnone (List.cons.inj hsplit).2).elim
  | retried e executable pid naps a' raised picked down slept =>
    obtain ⟨rfl, htail⟩ := List.cons.inj hsplit
    have hpre : .asked .ping a ∉ Event.launched executable
        (Bootstrap.arguments endpoint bootstrap.extraArgs) (.ok pid) :: naps.map .slept := by
      simp
    obtain ⟨rfl, -, -⟩ := parts_of_split hpre (hmarker raised) htail
    exact ⟨down, e, executable, _, pid, naps, rfl, slept⟩

end Shape

end Connecting

/-- An interrupt that wakes a run in the time that the engine is given is seen by a look. -/
theorem sighted_of_woken {before : List Event} {executable : Path} {arguments : List String}
    {pid : Nat} {raised : Bool} {nap : Trace}
    (woken : Nap (flag || before.any Event.isInterrupt || raised) nap false) :
    Event.SightedInGrace flag
      (before ++ .launched executable arguments (.ok pid) :: (marker raised ++ nap.events)) := by
  generalize hup : (flag || before.any Event.isInterrupt || raised) = up at woken
  cases woken with
  | refused =>
    refine ⟨before, .launched executable arguments (.ok pid), _, rfl, rfl, ?_⟩
    rw [Bool.or_assoc, Bool.or_eq_true, Bool.or_eq_true] at hup
    rcases hup with hflag | hbefore | rfl
    · exact .inl hflag
    · exact .inr (.inl hbefore)
    · exact .inr (.inr ⟨[], rfl⟩)
  | broken naps last =>
    refine ⟨before ++ .launched executable arguments (.ok pid) :: (marker raised ++ naps.map .slept),
      .slept last, [.interrupted], ?_, rfl, .inr (.inr ⟨[], rfl⟩)⟩
    simp

/-- Nothing is seen by the looks before another lookup, if nothing came in up to then. -/
theorem not_sighted_of_quiet {before after : List Event} {a : Except EngineError Unit}
    (hbefore : ∀ e ∈ before, e.isInterrupt = false) (hafter : ∀ e ∈ after, e.inGrace = false) :
    ¬ Event.SightedInGrace false (before ++ .asked .ping a :: after) := by
  rintro ⟨before', e, after', hsplit, hgrace, hseen⟩
  rcases append_split hsplit with ⟨rest, -, htail⟩ | ⟨rest, rfl, rfl⟩
  · have hnone : ∀ x ∈ Event.asked .ping a :: after, x.inGrace = false :=
      List.forall_mem_cons.mpr ⟨rfl, hafter⟩
    rw [hnone e (by rw [htail]; simp)] at hgrace
    cases hgrace
  · rcases hseen with hflag | hany | ⟨tail, htail⟩
    · cases hflag
    · obtain ⟨x, hmem, hx⟩ := List.any_eq_true.mp hany
      rw [hbefore x (List.mem_append_left _ hmem)] at hx
      cases hx
    · -- what stands after the look is a nap or the lookup
      rcases rest with _ | ⟨x, rest⟩
      · cases htail
      · have hx := hbefore x (by simp)
        rw [(List.cons.inj htail).1] at hx
        cases hx

/-- The outcomes of the lookups and of the start tell how a run ends. -/
theorem Connecting.verdict (h : Connecting env endpoint bootstrap s flag events r) :
    StartupVerdict endpoint bootstrap
      (∀ path ∈ bootstrap.executables, env.isFile path (env.answer .ping s).2 = false)
      (Event.SightedInGrace flag events) (Event.lookups events) (Event.launches events) r := by
  have hmarker (raised : Bool) := Event.idle_marker raised
  cases h with
  | found raised =>
    rw [Event.lookups_asked, Event.launches_asked, (hmarker raised).lookups, (hmarker raised).launches]
    exact .found
  | unstarted e raised starting fault start =>
    rw [Event.lookups_asked, Event.launches_asked, Event.lookups_append, Event.launches_append,
      (hmarker raised).lookups, (hmarker raised).launches]
    cases start with
    | unequipped missing => exact .unequipped e missing
    | refused executable why raised' picked =>
      rw [Event.lookups_launched, Event.launches_launched, (hmarker raised').lookups,
        (hmarker raised').launches]
      exact .refused e executable _ why picked.not_missing
    | interrupted executable pid raised' nap picked woken =>
      have hidle : Idle (marker raised' ++ nap.events) := (hmarker raised').append woken.kinds
      have hany : (Event.asked .ping (.error e) :: marker raised).any Event.isInterrupt = raised := by
        cases raised <;> rfl
      rw [Event.lookups_launched, Event.launches_launched, hidle.lookups, hidle.launches]
      rw [← hany] at woken
      exact .interrupted e executable _ pid picked.not_missing (sighted_of_woken woken)
  | retried e starting a raised start =>
    cases start with
    | passed executable pid naps picked down slept =>
      subst down
      have hidle : Idle (naps.map .slept) := Event.idle_naps naps
      have hquiet : ∀ x ∈ Event.asked .ping (.error e) :: .launched executable
          (Bootstrap.arguments endpoint bootstrap.extraArgs) (.ok pid) :: naps.map .slept,
          x.isInterrupt = false :=
        List.forall_mem_cons.mpr ⟨rfl, List.forall_mem_cons.mpr
          ⟨rfl, fun x hx => (silent_of_mem_naps hx).1⟩⟩
      have hblind : ∀ x ∈ marker raised, x.inGrace = false := by
        intro x hx
        rw [Event.eq_of_mem_marker hx]
        rfl
      have hunseen := not_sighted_of_quiet (a := a) hquiet hblind
      rw [Event.lookups_asked, Event.launches_asked, Event.lookups_append, Event.launches_append,
        Event.lookups_launched, Event.launches_launched, Event.lookups_asked, Event.launches_asked,
        hidle.lookups, hidle.launches, (hmarker raised).lookups, (hmarker raised).launches]
      exact .retried e executable _ pid a picked.not_missing hunseen

end

/-- A run that ensures an engine always ends. It makes a lookup, at most one start and, after a start,
at most one lookup more; what it comes to is read off their outcomes and the looks at the flag. -/
theorem ensureRunning_starts_once (env : Environment σ) (endpoint : Endpoint) (bootstrap : Bootstrap)
    (w : World σ) :
    ∃ r w' events,
      Session.run (Attempt.ensureRunning endpoint bootstrap).run env w = (some r, w') ∧
      w'.events = w.events ++ events ∧
      Connected env endpoint bootstrap w.outside w.interrupted events r := by
  have hensuring : Traces env w (Attempt.ensureRunning endpoint bootstrap).run fun t o =>
      ∃ r, o = some r ∧ Connecting env endpoint bootstrap w.outside w.interrupted t.events r :=
    Attempt.traces_ensureRunning endpoint bootstrap w
  obtain ⟨t, hl, r, hr, h⟩ := hensuring
  have hshape := h.shape
  have hverdict := h.verdict
  refine ⟨r, _, t.events, Prod.ext hr rfl, hl.events, ?_⟩
  exact {
    genuine := hl.genuine
    calls := hshape.calls
    launches := hshape.launches
    launched := fun before executable arguments result after hsplit => hshape.launched_split hsplit
    retried := fun before a after hsplit hbefore => hshape.retried_split hsplit hbefore
    running := hverdict.running_iff
    interrupted := hverdict.interrupted_iff
    failed := hverdict.failed_iff
    exhausted := hverdict.exhausted }

end GuardedRun
