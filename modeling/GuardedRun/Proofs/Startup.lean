import GuardedRun.Engine.Connection
import GuardedRun.Proofs.PollVerdict

/-! Starting the engine where it is not running. A run is a lookup and, where that fails, a start and
perhaps one lookup more; how it ends is read off these events and the flag. -/

namespace GuardedRun

variable {σ : Type} {env : Environment σ} {w w₁ : World σ}

open Session MonadSession
open Event (marker)

theorem Session.Traces.selectExecutable_bind {β : Type} {candidates : List Path}
    {f : Option Path → Session σ β} {R : Trace → Option β → Prop}
    (h : Traces env w (f (Bootstrap.selectExecutable (env.isFile · w.outside) candidates)) R) :
    Traces env w (Session.selectExecutable candidates >>= f) R := by
  obtain ⟨t, hl, ho⟩ := h
  exact ⟨t, by rw [run_bind]; exact hl, by rw [run_bind]; exact ho⟩

/-- The first candidate, in their order, that is a regular file. -/
def Bootstrap.Picks (isFile : Path → Bool) (candidates : List Path) (executable : Path) : Prop :=
  ∃ skipped later, candidates = skipped ++ executable :: later ∧ isFile executable = true ∧
    ∀ path ∈ skipped, isFile path = false

theorem Bootstrap.picks_of_select {isFile : Path → Bool} {candidates : List Path}
    {executable : Path} (h : selectExecutable isFile candidates = some executable) :
    Picks isFile candidates executable := by
  obtain ⟨hfile, skipped, later, hsplit, hskipped⟩ := List.find?_eq_some_iff_append.mp h
  refine ⟨skipped, later, hsplit, hfile, fun path hpath => ?_⟩
  simpa using hskipped path hpath

/-- What the lookup after a start makes of it. -/
def Bootstrap.verdict (endpoint : Endpoint) : Except EngineError Unit → Except ConnectError Unit
  | .ok () => .ok ()
  | .error e => .error (.bootstrapFailed endpoint.text
      s!"engine still unreachable after startup: {e.lookupReason}")

/-- What happens when an engine is started, from a state of the outside and with the flag up or down. -/
inductive Starting (env : Environment σ) (endpoint : Endpoint) (bootstrap : Bootstrap) (s : σ)
    (flag : Bool) : List Event → Except ConnectError Unit → Prop
  | unequipped (missing : ∀ path ∈ bootstrap.executables, env.isFile path s = false) :
    Starting env endpoint bootstrap s flag [] (.error (.bootstrapFailed endpoint.text
      (Bootstrap.noExecutableReason bootstrap.executables)))
  | refused (executable reason raised)
    (picked : Bootstrap.Picks (env.isFile · s) bootstrap.executables executable) :
    Starting env endpoint bootstrap s flag
      (.launched executable (Bootstrap.arguments endpoint bootstrap.extraArgs) (.error reason) ::
        marker raised)
      (.error (.bootstrapFailed endpoint.text s!"failed to start {executable}: {reason}"))
  | interrupted (executable pid raised nap)
    (picked : Bootstrap.Picks (env.isFile · s) bootstrap.executables executable)
    (woken : Nap (flag || raised) nap false) :
    Starting env endpoint bootstrap s flag
      (.launched executable (Bootstrap.arguments endpoint bootstrap.extraArgs) (.ok pid) ::
        (marker raised ++ nap.events)) (.error .interrupted)
  | passed (executable pid) (naps : List Nat)
    (picked : Bootstrap.Picks (env.isFile · s) bootstrap.executables executable)
    (down : flag = false) (slept : naps.sum = bootstrap.grace) :
    Starting env endpoint bootstrap s flag
      (.launched executable (Bootstrap.arguments endpoint bootstrap.extraArgs) (.ok pid) ::
        naps.map .slept) (.ok ())

theorem Starting.down {endpoint : Endpoint} {bootstrap : Bootstrap} {s : σ} {flag : Bool}
    {events : List Event} (h : Starting env endpoint bootstrap s flag events (.ok ())) :
    flag = false := by
  cases h with
  | passed executable pid naps picked down slept => exact down

/-- What happens when an engine is looked up, and started if it is not running. -/
inductive Connecting (env : Environment σ) (endpoint : Endpoint) (bootstrap : Bootstrap) (s : σ)
    (flag : Bool) : List Event → Except ConnectError Unit → Prop
  | found (raised) :
    Connecting env endpoint bootstrap s flag (.asked .ping (.ok ()) :: marker raised) (.ok ())
  | unstarted (e raised starting fault)
    (start : Starting env endpoint bootstrap (env.next s (.asked .ping (.error e))) (flag || raised)
      starting (.error fault)) :
    Connecting env endpoint bootstrap s flag
      (.asked .ping (.error e) :: (marker raised ++ starting)) (.error fault)
  | retried (e starting a raised)
    (start : Starting env endpoint bootstrap (env.next s (.asked .ping (.error e))) flag starting
      (.ok ())) :
    Connecting env endpoint bootstrap s flag
      (.asked .ping (.error e) :: (starting ++ .asked .ping a :: marker raised))
      (Bootstrap.verdict endpoint a)

namespace Attempt

theorem traces_note {line : LogLine} {R : Trace → Option (Except ConnectError Unit) → Prop}
    (h : R (.noted line) (some (.ok ()))) :
    Traces env w (note line : Attempt σ ConnectError Unit).run R := by
  apply Traces.of_returns
  rw [MonadSession.note, run_lift]
  apply Returns.note_bind
  intro w₁ _
  apply Returns.pure
  rw [Trace.append_nil]
  exact h

theorem traces_note_throw {line : LogLine} {e : ConnectError}
    {R : Trace → Option (Except ConnectError Unit) → Prop} (h : R (.noted line) (some (.error e))) :
    Traces env w (do note line; throw e : Attempt σ ConnectError Unit).run R := by
  apply Traces.of_returns
  apply returns_note_bind
  intro w₁
  apply Returns.pure
  rw [Trace.append_nil]
  exact h

theorem traces_startEngine (endpoint : Endpoint) (bootstrap : Bootstrap) (w : World σ) :
    Traces env w (startEngine endpoint bootstrap).run fun t o => ∃ r, o = some r ∧
      Starting env endpoint bootstrap w.outside w.interrupted t.events r := by
  unfold startEngine
  rw [run_lift_bind]
  apply Traces.selectExecutable_bind
  cases hselect : Bootstrap.selectExecutable (env.isFile · w.outside) bootstrap.executables with
  | none =>
    apply traces_note_throw
    refine ⟨_, rfl, .unequipped fun path hpath => ?_⟩
    simpa using List.find?_eq_none.mp hselect path hpath
  | some executable =>
    have hpicks := Bootstrap.picks_of_select hselect
    dsimp only
    rw [run_lift_bind]
    apply Traces.launch_bind
    intro raised result w₁ hl
    cases result with
    | error reason =>
      -- nothing was started, so there is nothing to wait for
      apply traces_note_throw
      refine ⟨_, rfl, ?_⟩
      rw [Trace.events_append]
      exact (List.append_nil _).symm ▸ .refused executable reason raised hpicks
    | ok pid =>
      have hflag : w₁.interrupted = (w.interrupted || raised) := by
        rw [hl.interrupted, Trace.raised_launched]
      dsimp only
      rw [info, run_note_bind]
      apply Traces.note_bind
      intro w₂ hl'
      have hflag' : w₂.interrupted = (w.interrupted || raised) := by
        rw [hl'.interrupted, hflag, Trace.raised_noted, Bool.or_false]
      rw [run_lift_bind]
      apply (traces_sleep_whole bootstrap.grace).bind
      · intro nap h
        obtain ⟨passed, h, -⟩ := h
        cases h
      intro nap passed w₃ _ h
      obtain ⟨_, h, hnap, hwhole⟩ := h
      cases h
      rw [hflag'] at hnap
      -- the flag is down all the while, or a look in the sleep finds it up
      cases passed with
      | false =>
        apply traces_note_throw
        refine ⟨_, rfl, ?_⟩
        have hstarting : Starting env endpoint bootstrap w.outside w.interrupted _ _ :=
          .interrupted executable pid raised nap hpicks hnap
        simpa [Trace.launched, Trace.noted, marker] using hstarting
      | true =>
        apply Traces.of_returns
        apply Returns.pure
        refine ⟨_, rfl, ?_⟩
        obtain ⟨naps, hnaps, hsum⟩ := hwhole rfl
        obtain ⟨hw, rfl⟩ : w.interrupted = false ∧ raised = false :=
          Bool.or_eq_false_iff.mp hnap.undisturbed.1
        have hstarting : Starting env endpoint bootstrap w.outside w.interrupted _ _ :=
          .passed executable pid naps hpicks hw hsum
        simpa [Trace.launched, Trace.noted, hnaps, marker] using hstarting

theorem run_lookup_bind {ε β : Type} (f : Except String Unit → Attempt σ ε β) :
    (liftSession Session.lookup >>= f).run = Session.ask .ping >>= fun a =>
      (f (a.mapError EngineError.lookupReason)).run := by
  rw [run_lift_bind, Session.lookup, Session.bind_bind]
  congr 1
  funext a
  cases a <;> rfl

/-- A run looks the engine up, and what follows depends on what comes of that. -/
theorem traces_ensureRunning (endpoint : Endpoint) (bootstrap : Bootstrap) (w : World σ) :
    Traces env w (ensureRunning endpoint bootstrap).run fun t o => ∃ r, o = some r ∧
      Connecting env endpoint bootstrap w.outside w.interrupted t.events r := by
  unfold ensureRunning
  rw [run_lookup_bind]
  apply Traces.ask_bind
  intro raised a w₁ hl
  cases a with
  | ok u =>
    apply traces_note
    refine ⟨_, rfl, ?_⟩
    rw [Trace.events_append]
    exact (List.append_nil _).symm ▸ .found raised
  | error e =>
    obtain ⟨houtside, hflag⟩ := hl.of_told
    dsimp only [Except.mapError]
    rw [info, run_note_bind]
    apply Traces.note_bind
    intro w₂ hl'
    have houtside' : w₂.outside = env.next w.outside (.asked .ping (.error e)) := by
      rw [hl'.outside, houtside]
      rfl
    have hflag' : w₂.interrupted = (w.interrupted || raised) := by
      rw [hl'.interrupted, hflag, Trace.raised_noted, Bool.or_false]
    rw [run_bind]
    apply (traces_startEngine endpoint bootstrap w₂).bind
    · intro t h
      obtain ⟨r, h, -⟩ := h
      cases h
    intro starting r w₃ _ h
    obtain ⟨_, h, hstart⟩ := h
    cases h
    rw [houtside', hflag'] at hstart
    cases r with
    | error fault =>
      -- the engine is not looked up again
      apply Traces.of_returns
      apply Returns.pure
      refine ⟨_, rfl, ?_⟩
      have hunstarted := Connecting.unstarted e raised starting.events fault hstart
      simpa [Trace.told, Trace.noted, marker] using hunstarted
    | ok u =>
      -- a start that passed found the flag down all along
      obtain ⟨hw, rfl⟩ : w.interrupted = false ∧ raised = false := Bool.or_eq_false_iff.mp hstart.down
      rw [Bool.or_false] at hstart
      dsimp only
      rw [run_lookup_bind]
      apply Traces.ask_bind
      intro raised' a w₄ _
      have hretried := Connecting.retried e starting.events a raised' hstart
      cases a with
      | ok u =>
        apply traces_note
        refine ⟨_, rfl, ?_⟩
        simpa [Trace.told, Trace.noted, marker, Bootstrap.verdict] using hretried
      | error e' =>
        apply traces_note_throw
        refine ⟨_, rfl, ?_⟩
        simpa [Trace.told, Trace.noted, marker, Bootstrap.verdict] using hretried

end Attempt

end GuardedRun
