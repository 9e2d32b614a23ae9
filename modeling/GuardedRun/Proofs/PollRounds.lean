import GuardedRun.Proofs.Waiting

/-! The rounds of waiting for an execution, as what they do to a world. A round either ends the waiting
or leads to the next one, however many rounds are followed; and what comes of a cancellation changes
nothing but the log. -/

namespace GuardedRun

variable {σ : Type} {env : Environment σ} {w : World σ}

open Session MonadSession

/-- The event with what came of a cancellation left out. -/
def Event.blind : Event → Event
  | asked (.cancel execution) _ => asked (.cancel execution) (.ok ())
  | event => event

/-- Two worlds that differ in their logs at most, and in what came of cancellations. -/
structure World.Alike (w w' : World σ) : Prop where
  outside : w'.outside = w.outside
  interrupted : w'.interrupted = w.interrupted
  events : w'.events.map Event.blind = w.events.map Event.blind

theorem World.Alike.refl (w : World σ) : w.Alike w := ⟨rfl, rfl, rfl⟩

/-- The environment that answers a cancellation in its own way, and does what the other one does. -/
def Environment.answeringCancel (env : Environment σ) (a : Except EngineError Unit) :
    Environment σ where
  answer := fun call s =>
    match call with
    | .cancel execution => (a, (env.answer (.cancel execution) s).2)
    | call => env.answer call s
  launch := env.launch
  pause := env.pause
  isFile := env.isFile
  interrupted := env.interrupted
  clock := env.clock
  stamp := env.stamp

/-- A session does the same whatever comes of cancellations, in worlds that are alike. -/
def Session.Heedless {α : Type} (env : Environment σ) (a : Except EngineError Unit)
    (s : Session σ α) : Prop :=
  ∀ w w', World.Alike w w' → (s.run (env.answeringCancel a) w').1 = (s.run env w).1 ∧
    World.Alike (s.run env w).2 (s.run (env.answeringCancel a) w').2

namespace Session.Heedless

variable {α β : Type} {a : Except EngineError Unit}

theorem pure (x : α) : Heedless env a (Pure.pure x : Session σ α) := fun _ _ h => ⟨rfl, h⟩

theorem bind {s : Session σ α} {f : α → Session σ β} (hs : Heedless env a s)
    (hf : ∀ x, Heedless env a (f x)) : Heedless env a (s >>= f) := by
  intro w w' h
  obtain ⟨ho, halike⟩ := hs w w' h
  rw [run_bind, run_bind]
  generalize s.run env w = first at ho halike
  generalize s.run (env.answeringCancel a) w' = second at ho halike
  obtain ⟨o, w₁⟩ := first
  obtain ⟨o', w₁'⟩ := second
  obtain rfl : o' = o := ho
  cases o' with
  | none => exact ⟨rfl, halike⟩
  | some x => exact hf x w₁ w₁' halike

/-- What happened in the same way is noted in the same way, but for what came of a cancellation. -/
theorem alike_after {w w' : World σ} (h : w.Alike w') (event event' : Event)
    (hevent : event'.blind = event.blind) (s : σ) :
    (w.after env event s).Alike (w'.after (env.answeringCancel a) event' s) := by
  constructor
  · rfl
  · show (w'.interrupted || env.interrupted s) = (w.interrupted || env.interrupted s)
    rw [h.interrupted]
  · show (w'.events ++ event' :: if !w'.interrupted && env.interrupted s then _ else _).map _ =
      (w.events ++ event :: if !w.interrupted && env.interrupted s then _ else _).map _
    rw [List.map_append, List.map_append, h.events, List.map_cons, List.map_cons, hevent, h.interrupted]

theorem ask_progress (execution : Execution) :
    Heedless env a (Session.ask (.progress execution)) := by
  intro w w' h
  refine ⟨?_, ?_⟩
  · show some (env.answer (.progress execution) w'.outside).1 = some (env.answer _ w.outside).1
    rw [h.outside]
  · show World.Alike _ (w'.after (env.answeringCancel a)
      (.asked (.progress execution) (env.answer (.progress execution) w'.outside).1)
      (env.answer (.progress execution) w'.outside).2)
    rw [h.outside]
    exact alike_after h _ _ rfl _

theorem pause (n : Nat) : Heedless env a (Session.pause n) := by
  intro w w' h
  refine ⟨rfl, ?_⟩
  show World.Alike _ (w'.after (env.answeringCancel a) (.slept n) (env.pause n w'.outside))
  rw [h.outside]
  exact alike_after h _ _ rfl _

theorem note (line : LogLine) : Heedless env a (Session.note line) :=
  fun _ _ h => ⟨rfl, h.outside, h.interrupted, h.events⟩

theorem isInterrupted : Heedless (σ := σ) env a Session.isInterrupted :=
  fun _ _ h => ⟨congrArg some h.interrupted, h⟩

theorem clock : Heedless env a Session.clock :=
  fun _ _ h => ⟨congrArg (fun s => some (env.clock s)) h.outside, h⟩

theorem sleep (n : Nat) : Heedless env a (Session.sleep n) := by
  unfold Session.sleep
  induction n using sleepIn.induct .millisecond with
  | case1 =>
    rw [sleepIn, if_pos rfl]
    exact isInterrupted.bind fun _ => pure _
  | case2 n hn ih =>
    rw [sleepIn, if_neg hn]
    refine isInterrupted.bind fun up => ?_
    cases up with
    | true => exact pure false
    | false => exact (pause _).bind fun _ => ih

/-- The answer to a cancellation only decides what is noted of it. -/
theorem cancelBestEffort (execution : Execution) (reason : String) :
    Heedless env a (Attempt.cancelBestEffort execution reason) := by
  intro w w' h
  have hasked : (w.after env (.asked (.cancel execution) (env.answer (.cancel execution) w.outside).1)
      (env.answer (.cancel execution) w.outside).2).Alike
        (w'.after (env.answeringCancel a) (.asked (.cancel execution) a)
          (env.answer (.cancel execution) w'.outside).2) := by
    have hblind (b : Except EngineError Unit) : (Event.asked (.cancel execution) a).blind =
        (Event.asked (.cancel execution) b).blind := rfl
    rw [h.outside]
    exact alike_after h _ _ (hblind _) _
  rw [Attempt.cancelBestEffort, run_bind, run_bind]
  have hask : (attempt (.cancel execution) : Session σ (Except EngineError Unit)).run env w =
      (some (env.answer (.cancel execution) w.outside).1, w.after env
        (.asked (.cancel execution) (env.answer (.cancel execution) w.outside).1)
          (env.answer (.cancel execution) w.outside).2) := rfl
  have hask' : (attempt (.cancel execution) : Session σ (Except EngineError Unit)).run
      (env.answeringCancel a) w' = (some a, w'.after (env.answeringCancel a)
        (.asked (.cancel execution) a) (env.answer (.cancel execution) w'.outside).2) := rfl
  rw [hask, hask']
  generalize w.after env _ _ = w₁ at hasked ⊢
  generalize w'.after (env.answeringCancel a) _ _ = w₁' at hasked ⊢
  cases (env.answer (.cancel execution) w.outside).1 <;> cases a <;>
    exact ⟨rfl, hasked.outside, hasked.interrupted, hasked.events⟩

end Session.Heedless

namespace Attempt

variable {execution : Execution} {polling : Polling} {started : Nat}

theorem run_poll_succ (n : Nat) :
    Session.run (poll execution polling started (n + 1)).run env w =
      if w.interrupted then
        Session.run (giveUp execution "interrupted" .interrupted).run env w
      else
        let w₁ := w.after env (.asked (.progress execution) (env.answer (.progress execution) w.outside).1)
          (env.answer (.progress execution) w.outside).2
        match (env.answer (.progress execution) w.outside).1 with
        | .error e => (some (.error (.remoteFault .poll e)), w₁)
        | .ok p =>
          let elapsed := env.clock w₁.outside - started
          if !p.inProgress then
            Session.run (info "poll.completed" s!"execution finished after {elapsed / 1000}s" :
              Attempt σ OrchestrationError Unit).run env w₁
          else if polling.deadlinePassed elapsed then
            Session.run (giveUp execution "deadline exceeded"
              (.pollDeadlineExceeded (polling.deadline.getD 0 / 1000))).run env w₁
          else
            match (sleep polling.interval).run env w₁ with
            | (some true, w₂) => Session.run (poll execution polling started n).run env w₂
            | (some false, w₂) => Session.run (giveUp execution "interrupted" .interrupted).run env w₂
            | (none, w₂) => (none, w₂) := by
  rw [poll, run_lift_bind, Session.run_bind]
  show Session.run (ExceptT.run (if w.interrupted then _ else _)) env w = _
  cases w.interrupted with
  | true => rfl
  | false =>
    rw [if_neg Bool.false_ne_true, if_neg Bool.false_ne_true, run_ask_bind, Session.run_bind]
    have hask : (Session.ask (.progress execution)).run env w =
        (some (env.answer (.progress execution) w.outside).1,
          w.after env (.asked (.progress execution) (env.answer (.progress execution) w.outside).1)
            (env.answer (.progress execution) w.outside).2) := rfl
    rw [hask]
    cases (env.answer (.progress execution) w.outside).1 with
    | error e => rfl
    | ok p =>
      dsimp only
      rw [run_lift_bind, Session.run_bind]
      generalize w.after env (.asked (.progress execution) (.ok p))
        (env.answer (.progress execution) w.outside).2 = w₁
      show Session.run (ExceptT.run (if !p.inProgress then _ else _)) env w₁ = _
      cases p.inProgress with
      | false => rfl
      | true =>
        rw [Bool.not_true, if_neg Bool.false_ne_true, if_neg Bool.false_ne_true]
        cases polling.deadlinePassed (env.clock w₁.outside - started) with
        | true => rfl
        | false =>
          rw [if_neg Bool.false_ne_true, if_neg Bool.false_ne_true, run_lift_bind, Session.run_bind]
          rcases (sleep polling.interval).run env w₁ with ⟨_ | _ | _, w₂⟩ <;> rfl

/-- A round ends the waiting, or leads to the next one by a query and a sleep with the flag down,
whatever number of rounds is followed. -/
theorem run_poll_round (env : Environment σ) (execution : Execution) (polling : Polling)
    (started : Nat) (w : World σ) :
    (∃ r w', ∀ n, Session.run (poll execution polling started (n + 1)).run env w = (some r, w')) ∨
      ∃ p, ∃ naps : List Nat, ∃ w₁ t, Leads env w t w₁ ∧
        t.events = .asked (.progress execution) (.ok p) :: naps.map .slept ∧ w₁.interrupted = false ∧
        ∀ n, Session.run (poll execution polling started (n + 1)).run env w =
          Session.run (poll execution polling started n).run env w₁ := by
  have hgiveUp (reason : String) (e : OrchestrationError) (w : World σ) :
      ∃ r w', Session.run (giveUp execution reason e).run env w = (some r, w') := by
    have hreturns : Returns env w (giveUp execution reason e).run fun _ _ => True :=
      (returns_giveUp execution reason e).mono fun _ _ _ => trivial
    obtain ⟨t, r, w', hrun, -⟩ := hreturns
    exact ⟨r, w', hrun⟩
  simp only [run_poll_succ]
  cases hflag : w.interrupted with
  | true =>
    obtain ⟨r, w', hrun⟩ := hgiveUp "interrupted" .interrupted w
    exact .inl ⟨r, w', fun _ => hrun⟩
  | false =>
    obtain ⟨raised, hl⟩ := Leads.told env w (.progress execution)
    simp only [if_neg Bool.false_ne_true]
    generalize w.after env _ _ = w₁ at hl ⊢
    generalize (env.answer (.progress execution) w.outside).1 = answer at hl ⊢
    cases answer with
    | error e => exact .inl ⟨_, w₁, fun _ => rfl⟩
    | ok p =>
      dsimp only
      cases p.inProgress with
      | false => exact .inl ⟨.ok (), _, fun _ => rfl⟩
      | true =>
        cases polling.deadlinePassed (env.clock w₁.outside - started) with
        | true =>
          obtain ⟨r, w', hrun⟩ := hgiveUp "deadline exceeded"
            (.pollDeadlineExceeded (polling.deadline.getD 0 / 1000)) w₁
          exact .inl ⟨r, w', fun _ => hrun⟩
        | false =>
          have hsleep : Traces env w₁ (sleep polling.interval) fun t o =>
            ∃ passed, o = some passed ∧ Nap w₁.interrupted t passed := traces_sleep polling.interval
          obtain ⟨nap, hnap, passed, ho, hpassed⟩ := hsleep
          rcases hrun : (sleep polling.interval).run env w₁ with ⟨o, w₂⟩
          rw [hrun] at hnap ho
          obtain rfl : o = some passed := ho
          cases passed with
          | false =>
            obtain ⟨r, w', hrun⟩ := hgiveUp "interrupted" .interrupted w₂
            exact .inl ⟨r, w', fun _ => hrun⟩
          | true =>
            -- a sleep that passed found the flag down and leaves it so
            obtain ⟨hdown, hquiet⟩ := hpassed.undisturbed
            have hflag : w₂.interrupted = false := by
              rw [hnap.interrupted, hdown, hquiet]
              rfl
            have hraised : raised = false := by
              have hboth := hl.of_told.2.symm.trans hdown
              exact (Bool.or_eq_false_iff.mp hboth).2
            rw [hdown] at hpassed
            cases hpassed with
            | full naps =>
              subst hraised
              exact .inr ⟨p, naps, w₂, _, hl.trans hnap, rfl, hflag, fun _ => rfl⟩

theorem heedless_giveUp (a : Except EngineError Unit) (reason : String) (e : OrchestrationError) :
    Heedless env a (giveUp execution reason e : Attempt σ OrchestrationError Unit).run := by
  unfold giveUp
  rw [run_lift_bind]
  exact (Heedless.cancelBestEffort execution reason).bind fun _ => .pure _

/-- What comes of a cancellation shows in the log alone, however many rounds are followed. -/
theorem heedless_poll (a : Except EngineError Unit) (execution : Execution) (polling : Polling)
    (started n : Nat) : Heedless env a (poll execution polling started n).run := by
  induction n with
  | zero => exact fun _ _ h => ⟨rfl, h⟩
  | succ n ih =>
    rw [poll, run_lift_bind]
    refine Heedless.isInterrupted.bind fun up => ?_
    cases up with
    | true => exact heedless_giveUp a _ _
    | false =>
      rw [if_neg Bool.false_ne_true, run_ask_bind]
      refine (Heedless.ask_progress execution).bind fun answer => ?_
      cases answer with
      | error e => exact .pure _
      | ok p =>
        dsimp only
        rw [run_lift_bind]
        refine Heedless.clock.bind fun now => ?_
        cases p.inProgress with
        | false => exact (Heedless.note _).bind fun _ => .pure _
        | true =>
          rw [Bool.not_true, if_neg Bool.false_ne_true]
          cases polling.deadlinePassed (now - started) with
          | true => exact heedless_giveUp a _ _
          | false =>
            rw [if_neg Bool.false_ne_true, run_lift_bind]
            refine (Heedless.sleep _).bind fun passed => ?_
            cases passed with
            | true => exact ih
            | false => exact heedless_giveUp a _ _

theorem heedless_waitForCompletion (a : Except EngineError Unit) (execution : Execution)
    (polling : Polling) (rounds : Nat) :
    Heedless env a (waitForCompletion execution polling rounds).run := by
  unfold waitForCompletion
  rw [run_lift_bind]
  exact Heedless.clock.bind fun started => heedless_poll a execution polling started rounds

end Attempt

end GuardedRun
