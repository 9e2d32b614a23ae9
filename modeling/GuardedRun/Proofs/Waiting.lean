import GuardedRun.Proofs.Trace
import Mathlib.Algebra.Ring.Nat

/-! Waiting for an execution, event by event. The flag is looked at before every query and in every
sleep; what is done once it is up leaves no room for another query. -/

namespace GuardedRun

variable {σ : Type} {env : Environment σ} {w : World σ}

open Session MonadSession

/-- What happens in a sleep that begins with the flag up or down, and whether it passed undisturbed. -/
inductive Nap : Bool → Trace → Bool → Prop
  | refused : Nap true {} false
  | full (naps : List Nat) : Nap false { events := naps.map .slept } true
  | broken (naps : List Nat) (last : Nat) :
    Nap false { events := naps.map .slept ++ [.slept last, .interrupted] } false

theorem Nap.cons {n : Nat} {t : Trace} {passed : Bool} (h : Nap false t passed) :
    Nap false (.slept n false ++ t) passed := by
  cases h with
  | full naps => exact .full (n :: naps)
  | broken naps last => exact .broken (n :: naps) last

theorem Nap.kinds {flag passed : Bool} {t : Trace} (h : Nap flag t passed) :
    ∀ e ∈ t.events, (∃ n, e = .slept n) ∨ e = .interrupted := by
  have hslept (naps : List Nat) : ∀ e ∈ naps.map Event.slept, ∃ n, e = .slept n := by
    intro e he
    obtain ⟨n, -, rfl⟩ := List.mem_map.mp he
    exact ⟨n, rfl⟩
  intro e he
  cases h with
  | refused => cases he
  | full naps => exact .inl (hslept naps e he)
  | broken naps last =>
    rcases List.mem_append.mp he with he | he
    · exact .inl (hslept naps e he)
    · rcases List.mem_cons.mp he with rfl | he
      · exact .inl ⟨last, rfl⟩
      · exact .inr (List.mem_singleton.mp he)

theorem Nap.undisturbed {flag : Bool} {t : Trace} (h : Nap flag t true) :
    flag = false ∧ t.raised = false := by
  cases h with
  | full naps =>
    refine ⟨rfl, ?_⟩
    simp [Trace.raised, Event.isInterrupt]

/-- A sleep that passes takes its whole time, in slices. -/
theorem traces_sleep_whole (n : Nat) :
    Traces env w (sleep n) fun t o => ∃ passed, o = some passed ∧ Nap w.interrupted t passed ∧
      (passed = true → ∃ naps : List Nat, t.events = naps.map .slept ∧ naps.sum = n) := by
  unfold sleep
  -- by the slices that are left; each begins with a look at the flag
  induction n using sleepIn.induct .millisecond generalizing w with
  | case1 =>
    rw [sleepIn, if_pos rfl]
    apply Traces.isInterrupted_bind
    apply Traces.of_returns
    apply Returns.pure
    refine ⟨_, rfl, ?_, fun _ => ⟨[], rfl, rfl⟩⟩
    cases w.interrupted with
    | true => exact .refused
    | false => exact .full []
  | case2 n hn ih =>
    rw [sleepIn, if_neg hn]
    apply Traces.isInterrupted_bind
    cases hw : w.interrupted with
    | true =>
      rw [if_pos rfl]
      exact .of_returns (.pure ⟨false, rfl, .refused, fun h => absurd h Bool.false_ne_true⟩)
    | false =>
      rw [if_neg Bool.false_ne_true]
      apply Traces.pause_bind
      intro raised w₁ hl
      have hraised : w₁.interrupted = raised := by
        rw [hl.interrupted, hw, Trace.raised_slept, Bool.false_or]
      apply ih.mono
      rw [hraised]
      intro t o h
      obtain ⟨passed, rfl, hnap, hwhole⟩ := h
      cases raised with
      | true =>
        -- the next slice finds the flag up
        cases hnap
        exact ⟨false, rfl, .broken [] _, fun h => absurd h Bool.false_ne_true⟩
      | false =>
        refine ⟨passed, rfl, hnap.cons, fun hpassed => ?_⟩
        obtain ⟨naps, ht, hsum⟩ := hwhole hpassed
        have hlater : (Trace.slept (min n TimeUnit.millisecond.slice) false ++ t).events =
            (min n TimeUnit.millisecond.slice :: naps).map .slept := by
          rw [Trace.events_append, ht]
          rfl
        have htotal : (min n TimeUnit.millisecond.slice :: naps).sum = n := by
          rw [List.sum_cons, hsum]
          omega
        exact ⟨_, hlater, htotal⟩

theorem traces_sleep (n : Nat) :
    Traces env w (sleep n) fun t o => ∃ passed, o = some passed ∧ Nap w.interrupted t passed := by
  apply (traces_sleep_whole n).mono
  intro t o h
  obtain ⟨passed, ho, hnap, -⟩ := h
  exact ⟨passed, ho, hnap⟩

/-- The rounds in which an execution is waited for, from a state of the outside and with the flag up
or down. -/
inductive Watch (env : Environment σ) (execution : Execution) (polling : Polling) (started : Nat) :
    Nat → σ → Bool → Trace → Option (Except OrchestrationError Unit) → Prop
  | unfollowed (s flag) : Watch env execution polling started 0 s flag {} none
  | interrupted (rounds s a raised line) : Watch env execution polling started (rounds + 1) s true
    (.told (.cancel execution) a raised ++ .noted line) (some (.error .interrupted))
  | failed (rounds s e raised) : Watch env execution polling started (rounds + 1) s false
    (.told (.progress execution) (.error e) raised) (some (.error (.remoteFault .poll e)))
  | finished (rounds s p raised line) (done : p.inProgress = false) :
    Watch env execution polling started (rounds + 1) s false
      (.told (.progress execution) (.ok p) raised ++ .noted line) (some (.ok ()))
  | late (rounds s p raised a raised' line) (running : p.inProgress = true)
    (passed : polling.deadlinePassed
      (env.clock (env.next s (.asked (.progress execution) (.ok p))) - started) = true) :
    Watch env execution polling started (rounds + 1) s false
      (.told (.progress execution) (.ok p) raised ++
        (.told (.cancel execution) a raised' ++ .noted line))
      (some (.error (.pollDeadlineExceeded (polling.deadline.getD 0 / 1000))))
  | stopped (rounds s p raised nap a raised' line) (running : p.inProgress = true)
    (early : polling.deadlinePassed
      (env.clock (env.next s (.asked (.progress execution) (.ok p))) - started) = false)
    (woken : Nap raised nap false) :
    Watch env execution polling started (rounds + 1) s false
      (.told (.progress execution) (.ok p) raised ++
        (nap ++ (.told (.cancel execution) a raised' ++ .noted line)))
      (some (.error .interrupted))
  | again (rounds s p nap t o) (running : p.inProgress = true)
    (early : polling.deadlinePassed
      (env.clock (env.next s (.asked (.progress execution) (.ok p))) - started) = false)
    (slept : Nap false nap true)
    (rest : Watch env execution polling started rounds
      (env.replay s (.asked (.progress execution) (.ok p) :: nap.events)) false t o) :
    Watch env execution polling started (rounds + 1) s false
      (.told (.progress execution) (.ok p) false ++ (nap ++ t)) o

namespace Attempt

theorem returns_giveUp (execution : Execution) (reason : String) (e : OrchestrationError) :
    Returns env w (giveUp execution reason e : Attempt σ OrchestrationError Unit).run fun t r =>
      (∃ a raised line, t = .told (.cancel execution) a raised ++ .noted line) ∧ r = .error e := by
  unfold giveUp
  rw [run_lift_bind]
  apply Returns.bind (S := fun t _ =>
    ∃ a raised line, t = .told (.cancel execution) a raised ++ .noted line)
  · unfold cancelBestEffort
    apply Returns.ask_bind
    intro raised a w₁ _
    cases a with
    | ok u => exact .note ⟨.ok u, raised, _, rfl⟩
    | error e => exact .note ⟨.error e, raised, _, rfl⟩
  · intro t u w₁ _ h
    obtain ⟨a, raised, line, rfl⟩ := h
    apply Returns.pure
    rw [Trace.append_nil]
    exact ⟨⟨a, raised, line, rfl⟩, rfl⟩

/-- The end of a round in which the execution was running: a sleep, and the next round unless the
sleep was broken. -/
theorem traces_sleep_poll {execution : Execution} {polling : Polling} {started rounds : Nat}
    {p : Progress} {raised : Bool} {w₁ : World σ}
    (ih : ∀ w : World σ, Traces env w (poll execution polling started rounds).run
      (Watch env execution polling started rounds w.outside w.interrupted))
    (hdown : w.interrupted = false) (hl : Leads env w (.told (.progress execution) (.ok p) raised) w₁)
    (running : p.inProgress = true)
    (early : polling.deadlinePassed (env.clock w₁.outside - started) = false) :
    Traces env w₁ (do
      if ← liftSession (Session.sleep polling.interval) then poll execution polling started rounds
      else giveUp execution "interrupted" .interrupted : Attempt σ OrchestrationError Unit).run
        fun t o => Watch env execution polling started (rounds + 1) w.outside false
          (.told (.progress execution) (.ok p) raised ++ t) o := by
  obtain ⟨hstate, hflag⟩ := hl.of_told
  rw [hdown, Bool.false_or] at hflag
  rw [hstate] at early
  rw [run_lift_bind]
  apply (traces_sleep polling.interval).bind
  · intro nap h
    obtain ⟨passed, h, -⟩ := h
    cases h
  intro nap passed w₂ hl' h
  obtain ⟨_, h, hnap⟩ := h
  cases h
  rw [hflag] at hnap
  cases passed with
  | false =>
    rw [if_neg Bool.false_ne_true]
    apply Traces.of_returns
    apply (returns_giveUp _ _ _).mono
    intro t r h
    obtain ⟨⟨a, raised', line, rfl⟩, rfl⟩ := h
    exact .stopped rounds _ p raised nap a raised' line running early hnap
  | true =>
    rw [if_pos rfl]
    -- the sleep passed, so the next round begins with the flag down
    obtain ⟨rfl, hquiet⟩ := hnap.undisturbed
    have hdown' : w₂.interrupted = false := by
      rw [hl'.interrupted, hflag, hquiet, Bool.false_or]
    have houtside : w₂.outside = env.replay w.outside
        (.asked (.progress execution) (.ok p) :: nap.events) := by
      rw [hl'.outside, hstate, Environment.replay_cons]
    apply (ih w₂).mono
    intro t o hwatch
    rw [houtside, hdown'] at hwatch
    exact .again rounds _ p nap t o running early hnap hwatch

/-- The waiting is the watch over an execution, however many rounds of it are followed. -/
theorem traces_poll (execution : Execution) (polling : Polling) (started rounds : Nat) (w : World σ) :
    Traces env w (poll execution polling started rounds).run
      (Watch env execution polling started rounds w.outside w.interrupted) := by
  induction rounds generalizing w with
  | zero => exact ⟨{}, .refl env w, .unfollowed _ _⟩
  | succ rounds ih =>
    unfold poll
    rw [run_lift_bind]
    apply Traces.isInterrupted_bind
    cases hw : w.interrupted with
    | true =>
      rw [if_pos rfl]
      apply Traces.of_returns
      apply (returns_giveUp _ _ _).mono
      intro t r h
      obtain ⟨⟨a, raised, line, rfl⟩, rfl⟩ := h
      exact .interrupted rounds _ a raised line
    | false =>
      rw [if_neg Bool.false_ne_true, run_ask_bind]
      apply Traces.ask_bind
      intro raised a w₁ hl
      cases a with
      | error e =>
        apply Traces.of_returns
        apply Returns.pure
        rw [Trace.append_nil]
        exact .failed rounds _ e raised
      | ok p =>
        dsimp only
        rw [run_lift_bind]
        apply Traces.clock_bind
        -- an execution that has ended is never too late, so this comes before the deadline
        cases hrunning : p.inProgress with
        | false =>
          rw [Bool.not_false, if_pos rfl]
          apply Traces.of_returns
          apply Returns.note_bind
          intro w₂ _
          apply Returns.pure
          exact .finished rounds _ p raised _ hrunning
        | true =>
          rw [Bool.not_true, if_neg Bool.false_ne_true]
          cases hpassed : polling.deadlinePassed (env.clock w₁.outside - started) with
          | true =>
            rw [if_pos rfl]
            rw [hl.of_told.1] at hpassed
            apply Traces.of_returns
            apply (returns_giveUp _ _ _).mono
            intro t r h
            obtain ⟨⟨a, raised', line, rfl⟩, rfl⟩ := h
            exact .late rounds _ p raised a raised' line hrunning hpassed
          | false =>
            rw [if_neg Bool.false_ne_true]
            exact traces_sleep_poll ih hw hl hrunning hpassed

theorem traces_waitForCompletion (execution : Execution) (polling : Polling) (rounds : Nat) :
    Traces env w (waitForCompletion execution polling rounds).run
      (Watch env execution polling (env.clock w.outside) rounds w.outside w.interrupted) := by
  unfold waitForCompletion
  rw [run_lift_bind]
  apply Traces.clock_bind
  exact traces_poll execution polling _ rounds w

end Attempt

end GuardedRun
