import GuardedRun.Proofs.Protocol

/-! Interruption. Once the flag is up, no work is started and none is asked after; and the event during
which it rose decides how the guarded part ends. -/

namespace GuardedRun

variable {σ : Type} {env : Environment σ} {w : World σ}

open Session Guard

namespace Event

/-- A call that starts work or asks how far it is. -/
def pursues : Event → Bool
  | asked (.run _) _ | asked (.regenerateReport _) _ | asked (.progress _) _ => true
  | _ => false

/-- A part of work in the engine: a call about it, or a sleep. -/
def isWork : Event → Bool
  | asked call _ => call.isWork
  | slept _ => true
  | _ => false

def isTrigger : Event → Bool
  | asked call _ => call.isTrigger
  | _ => false

def isCancel : Event → Bool
  | asked (.cancel _) _ => true
  | _ => false

/-- A successful start of work. -/
def isStart : Event → Bool
  | asked (.run _) (.ok _) | asked (.regenerateReport _) (.ok _) => true
  | _ => false

def isQuery : Event → Bool
  | asked (.progress _) _ => true
  | _ => false

/-- A part of waiting for an execution: a query or a sleep. -/
def isWait : Event → Bool
  | asked (.progress _) _ => true
  | slept _ => true
  | _ => false

/-- With the flag up or down at first, nothing is pursued in a history once the flag is up. -/
def Heeds : Bool → List Event → Prop
  | _, [] => True
  | flag, event :: rest =>
    (flag = true → event.pursues = false) ∧ Heeds (flag || event.isInterrupt) rest

theorem heeds_append (flag : Bool) (a b : List Event) :
    Heeds flag (a ++ b) ↔ Heeds flag a ∧ Heeds (flag || a.any isInterrupt) b := by
  induction a generalizing flag with
  | nil => simp [Heeds]
  | cons event rest ih => simp [Heeds, ih, and_assoc, Bool.or_assoc]

theorem heeds_of_still {events : List Event} (flag : Bool) (h : ∀ e ∈ events, e.pursues = false) :
    Heeds flag events := by
  induction events generalizing flag with
  | nil => trivial
  | cons event rest ih =>
    exact ⟨fun _ => h event List.mem_cons_self, ih _ fun e he => h e (List.mem_cons_of_mem _ he)⟩

/-- What is no part of the work is none of its parts. -/
theorem kinds_of_idle {e : Event} (h : e.isWork = false) : e.pursues = false ∧ e.isStart = false ∧
    e.isWait = false ∧ e.isQuery = false ∧ e.isCancel = false := by
  cases e with
  | asked call a => cases call <;> first | exact ⟨rfl, rfl, rfl, rfl, rfl⟩ | cases h
  | slept n => cases h
  | launched | interrupted => exact ⟨rfl, rfl, rfl, rfl, rfl⟩

theorem isWork_of_isWait {e : Event} (h : e.isWait = true) : e.isWork = true := by
  cases hwork : e.isWork with
  | true => rfl
  | false =>
    rw [(kinds_of_idle hwork).2.2.1] at h
    cases h

theorem isWork_of_isStart {e : Event} (h : e.isStart = true) : e.isWork = true := by
  cases hwork : e.isWork with
  | true => rfl
  | false =>
    rw [(kinds_of_idle hwork).2.1] at h
    cases h

theorem heeds_of_idle {events : List Event} (flag : Bool) (h : ∀ e ∈ events, e.isWork = false) :
    Heeds flag events :=
  heeds_of_still flag fun e he => (kinds_of_idle (h e he)).1

theorem Heeds.still {events : List Event} (h : Heeds true events) :
    ∀ e ∈ events, e.pursues = false := by
  induction events with
  | nil => exact nofun
  | cons event rest ih => exact List.forall_mem_cons.mpr ⟨h.1 rfl, ih h.2⟩

/-- A history without an interrupt, before one that begins with an event of its own: the interrupt
came in during an event of the latter. -/
theorem raise_after {a b before after : List Event} {e : Event}
    (ha : ∀ x ∈ a, x.isInterrupt = false) (hb : Headed b)
    (h : a ++ b = before ++ e :: .interrupted :: after) :
    ∃ before', before = a ++ before' ∧ b = before' ++ e :: .interrupted :: after := by
  rcases append_split h with ⟨before', hbefore, hb'⟩ | ⟨rest, ha', hrest⟩
  · exact ⟨before', hbefore, hb'⟩
  -- the interrupt would begin the second history, or stand in the first one
  · rcases rest with _ | ⟨y, rest⟩
    · exact absurd hrest.symm (hb after)
    · have hmem : y ∈ a := by
        rw [ha']
        simp
      have hfalse := ha y hmem
      rw [← (List.cons.inj hrest).1] at hfalse
      cases hfalse

theorem raise_in {x : Event} {raised : Bool} {b before after : List Event} {e : Event} (hb : Headed b)
    (h : (x :: if raised then [.interrupted] else []) ++ b = before ++ e :: .interrupted :: after) :
    (raised = true ∧ before = [] ∧ e = x ∧ after = b) ∨
      ∃ before', before = (x :: if raised then [.interrupted] else []) ++ before' ∧
        b = before' ++ e :: .interrupted :: after := by
  rcases append_split h with ⟨before', hbefore, hb'⟩ | ⟨rest, hx, hrest⟩
  · exact .inr ⟨before', hbefore, hb'⟩
  left
  rcases rest with _ | ⟨y, rest⟩
  · exact absurd hrest.symm (hb after)
  -- something follows the event in its own part, so it is the first one there
  have hlength := congrArg List.length hx
  cases raised with
  | false =>
    simp at hlength
    omega
  | true =>
    rcases before with _ | ⟨z, before⟩
    · obtain ⟨rfl, hrest'⟩ := List.cons.inj hx
      obtain ⟨-, rfl⟩ := List.cons.inj hrest'
      exact ⟨rfl, rfl, rfl, (List.cons.inj hrest).2⟩
    · simp at hlength
      omega

end Event

open Event (Heeds)

namespace Trace

theorem idle_of_exchanges {t : Trace} (ht : t.Awake)
    (h : ∀ x ∈ t.exchanges, x.call.isWork = false) : ∀ e ∈ t.events, e.isWork = false := by
  intro e he
  cases e with
  | asked call a => exact h ⟨call, a⟩ (List.mem_filterMap.mpr ⟨_, he, rfl⟩)
  | slept n => cases ht _ he
  | launched | interrupted => rfl

theorem heeds_append {flag : Bool} {a b : Trace} (ha : Heeds flag a.events)
    (hb : Heeds (flag || a.raised) b.events) : Heeds flag (a ++ b).events :=
  (Event.heeds_append flag a.events b.events).mpr ⟨ha, hb⟩

theorem heeds_told (call : Call) (a : Except EngineError call.Reply) (raised : Bool) :
    Heeds false (told call a raised).events := by
  cases raised <;> simp [told, Heeds, Event.pursues]

end Trace

theorem Nap.heeds {flag passed : Bool} {t : Trace} (h : Nap flag t passed) : Heeds flag t.events := by
  apply Event.heeds_of_still
  intro e he
  rcases h.kinds e he with ⟨n, rfl⟩ | rfl <;> rfl

theorem heeds_cancelled (flag : Bool) (execution : Execution) (a : Except EngineError Unit)
    (raised : Bool) (line : LogLine) :
    Heeds flag (.told (.cancel execution) a raised ++ .noted line : Trace).events := by
  apply Event.heeds_of_still
  cases raised <;> simp [Trace.told, Trace.noted, Event.pursues]

theorem Watch.heeds {execution : Execution} {polling : Polling} {started rounds : Nat} {s : σ}
    {flag : Bool} {t : Trace} {o : Option (Except OrchestrationError Unit)}
    (h : Watch env execution polling started rounds s flag t o) : Heeds flag t.events := by
  -- a round queries only with the flag down, and a sleep that passes leaves it down
  induction h with
  | unfollowed s flag => trivial
  | interrupted rounds s a raised line => exact heeds_cancelled true execution a raised line
  | failed rounds s e raised => exact Trace.heeds_told _ _ raised
  | finished rounds s p raised line done =>
    exact Trace.heeds_append (Trace.heeds_told _ _ raised) trivial
  | late rounds s p raised a raised' line running passed =>
    exact Trace.heeds_append (Trace.heeds_told _ _ raised) (heeds_cancelled _ execution a raised' line)
  | stopped rounds s p raised nap a raised' line running early woken =>
    apply Trace.heeds_append (Trace.heeds_told _ _ raised)
    rw [Trace.raised_told, Bool.false_or]
    exact Trace.heeds_append woken.heeds (heeds_cancelled _ execution a raised' line)
  | again rounds s p nap t o running early slept rest ih =>
    apply Trace.heeds_append (Trace.heeds_told _ _ false)
    rw [Trace.raised_told, Bool.false_or]
    apply Trace.heeds_append slept.heeds
    rw [slept.undisturbed.2, Bool.false_or]
    exact ih

theorem Task.Labour.heeds {ctx : Orchestration} {task : Task} {c : Configuration} {s : σ}
    {flag : Bool} {t : Trace} {o : Option (Except OrchestrationError Unit)}
    (h : Task.Labour env ctx task c s flag t o) : Heeds flag t.events := by
  cases h with
  | forestalled line => trivial
  | refused e raised => exact Trace.heeds_told _ _ raised
  | started execution raised line s' t o after watch =>
    apply Trace.heeds_append (Trace.heeds_told _ _ raised)
    rw [Trace.raised_told, Bool.false_or]
    exact watch.heeds

theorem Task.Altering.idle {task : Task} {g : Guard} {redirection alteration : Trace}
    {r : Except OrchestrationError Unit} (h : Task.Altering task g redirection alteration r) :
    ∀ e ∈ (redirection ++ alteration).events, e.isWork = false := by
  apply Trace.idle_of_exchanges h.awake
  intro x hx
  rw [Trace.exchanges_append, List.mem_append] at hx
  rcases hx with hx | hx
  · exact Call.isWork_of_isRedirect (h.redirects x hx)
  · exact Call.isWork_of_isChange (h.change_kinds x hx)

theorem Task.Region.heeds {ctx : Orchestration} {task : Task} {g : Guard} {s : σ} {flag : Bool}
    {t : Trace} {o : Option (Except OrchestrationError Unit × Guard)}
    (h : Task.Region env ctx task g s flag t o) : Heeds flag t.events := by
  cases h with
  | failed redirection alteration e altering => exact Event.heeds_of_idle flag altering.idle
  | worked redirection alteration labour o altering labours =>
    exact Trace.heeds_append (Event.heeds_of_idle flag altering.idle) labours.heeds

theorem Request.Preparing.idle {request : Request} {t : Trace} (ht : t.Awake)
    {directories : Option (Path × Path)} (h : request.Preparing t.exchanges directories) :
    ∀ e ∈ t.events, e.isWork = false := by
  obtain ⟨c, ys, zs, hparts, hplanning, hreadings, -⟩ := h.planning
  apply Trace.idle_of_exchanges ht
  rw [hparts]
  exact (hplanning.append hreadings.kinds).idle

theorem Guard.Restoration.idle {g : Guard} {t : Trace} {failures : List RestoreFailure}
    (ht : t.Awake) (h : g.Restoration t failures) (line : LogLine) :
    ∀ e ∈ (t ++ .noted line).events, e.isWork = false := by
  apply Trace.idle_of_exchanges (ht.append (Trace.awake_noted line))
  rw [Trace.exchanges_append, Trace.exchanges_noted, List.append_nil]
  exact h.restores.comprises.idle

theorem Course.heeds {ctx : Orchestration} {request : Request} {s : σ} {flag : Bool} {t : Trace}
    {o : Option (Except OrchestrationError Outcome)} (h : Course env ctx request s flag t o) :
    Heeds flag t.events := by
  cases h with
  | unprepared planning e awake preparing =>
    exact Event.heeds_of_idle flag (preparing.idle awake)
  | unfinished planning work task g awake preparing prepared region =>
    exact Trace.heeds_append (Event.heeds_of_idle flag (preparing.idle awake)) region.heeds
  | finished planning work restoration line task g result g' failures awake preparing prepared
      region restored quiet headed =>
    apply Trace.heeds_append (Event.heeds_of_idle flag (preparing.idle awake))
    apply Trace.heeds_append region.heeds
    exact Event.heeds_of_idle _ (restored.idle quiet line)

/-- What the waiting ends with, and after how many cancellations, if the interrupt comes in during an
event of it. The outside is the one after the event. -/
inductive Struck (env : Environment σ) (execution : Execution) (polling : Polling) (started : Nat)
    (s : σ) : Event → Except OrchestrationError Unit → Nat → Prop
  | failed (e) : Struck env execution polling started s (.asked (.progress execution) (.error e))
    (.error (.remoteFault .poll e)) 0
  | finished (p) (done : p.inProgress = false) : Struck env execution polling started s
    (.asked (.progress execution) (.ok p)) (.ok ()) 0
  | late (p) (running : p.inProgress = true)
    (passed : polling.deadlinePassed (env.clock s - started) = true) :
    Struck env execution polling started s (.asked (.progress execution) (.ok p))
      (.error (.pollDeadlineExceeded (polling.deadline.getD 0 / 1000))) 1
  | stopped (p) (running : p.inProgress = true)
    (early : polling.deadlinePassed (env.clock s - started) = false) :
    Struck env execution polling started s (.asked (.progress execution) (.ok p))
      (.error .interrupted) 1
  | woken (n) : Struck env execution polling started s (.slept n) (.error .interrupted) 1

theorem headed_told (call : Call) (a : Except EngineError call.Reply) (raised : Bool) (t : Trace) :
    Event.Headed (.told call a raised ++ t : Trace).events := nofun

theorem Watch.headed {execution : Execution} {polling : Polling} {started rounds : Nat} {s : σ}
    {flag : Bool} {t : Trace} {o : Option (Except OrchestrationError Unit)}
    (h : Watch env execution polling started rounds s flag t o) : Event.Headed t.events := by
  cases h with
  | unfollowed => exact nofun
  | interrupted | finished | late | stopped | again => exact headed_told _ _ _ _
  | failed => exact nofun

/-- The interrupt did not come in during a cancellation if it did during a part of the waiting. -/
theorem not_wait_of_cancelled {execution : Execution} {a : Except EngineError Unit} {raised : Bool}
    {line : LogLine} {before after : List Event} {e : Event} (he : e.isWait = true)
    (h : (.told (.cancel execution) a raised ++ .noted line : Trace).events =
      before ++ e :: .interrupted :: after) : False := by
  have hnone : Event.Headed ([] : List Event) := nofun
  rcases Event.raise_in hnone h with ⟨-, -, rfl, -⟩ | ⟨before', -, h⟩
  · cases he
  · simp at h

theorem countP_cancel_told (call : Call) (a : Except EngineError call.Reply) (raised : Bool)
    (t : Trace) : (.told call a raised ++ t : Trace).events.countP Event.isCancel =
      (if (Event.asked call a).isCancel then 1 else 0) + t.events.countP Event.isCancel := by
  cases raised <;> simp [Trace.told, List.countP_cons, Event.isCancel] <;> omega

theorem Nap.countP_cancel {flag passed : Bool} {nap : Trace} (h : Nap flag nap passed) (t : Trace) :
    (nap ++ t).events.countP Event.isCancel = t.events.countP Event.isCancel := by
  have hnone : nap.events.countP Event.isCancel = 0 := by
    rw [List.countP_eq_zero]
    intro e he
    rcases h.kinds e he with ⟨n, rfl⟩ | rfl <;> exact Bool.false_ne_true
  rw [Trace.events_append, List.countP_append, hnone, Nat.zero_add]

theorem Nap.headed {flag passed : Bool} {nap t : Trace} (h : Nap flag nap passed)
    (ht : Event.Headed t.events) : Event.Headed (nap ++ t).events := by
  cases h with
  | refused => exact ht
  | full naps =>
    cases naps with
    | nil => exact ht
    | cons n naps => exact nofun
  | broken naps last => cases naps <;> exact nofun

theorem Nap.struck {flag passed : Bool} {nap : Trace} (h : Nap flag nap passed)
    {b before after : List Event} {e : Event} (hb : Event.Headed b)
    (hx : nap.events ++ b = before ++ e :: .interrupted :: after) :
    (passed = false ∧ ∃ n, e = .slept n) ∨
      ∃ before', before = nap.events ++ before' ∧ b = before' ++ e :: .interrupted :: after := by
  have hslept (naps : List Nat) : ∀ x ∈ naps.map Event.slept, x.isInterrupt = false := by
    intro x hmem
    obtain ⟨n, -, rfl⟩ := List.mem_map.mp hmem
    rfl
  cases h with
  | refused => exact .inr ⟨before, rfl, hx⟩
  | full naps =>
    obtain ⟨before', hbefore, hx⟩ := Event.raise_after (hslept naps) hb hx
    exact .inr ⟨before', hbefore, hx⟩
  | broken naps last =>
    rw [List.append_assoc] at hx
    -- only the last sleep of a broken nap has an interrupt after it
    have hlast : Event.Headed ([.slept last, .interrupted] ++ b) := nofun
    obtain ⟨before₁, hbefore₁, hx⟩ := Event.raise_after (hslept naps) hlast hx
    have hx₁ : (.slept last :: if true then [.interrupted] else []) ++ b =
        before₁ ++ e :: .interrupted :: after := hx
    rcases Event.raise_in hb hx₁ with ⟨-, -, he, -⟩ | ⟨before₂, hbefore₂, hx₂⟩
    · exact .inl ⟨rfl, last, he⟩
    · refine .inr ⟨before₂, ?_, hx₂⟩
      rw [hbefore₁, hbefore₂, List.append_assoc]
      rfl

/-- The event of the waiting during which the interrupt comes in decides how it ends. -/
theorem Watch.struck {execution : Execution} {polling : Polling} {started rounds : Nat} {s : σ}
    {t : Trace} {o : Option (Except OrchestrationError Unit)}
    (h : Watch env execution polling started rounds s false t o) {before after : List Event}
    {e : Event} (he : e.isWait = true) (hx : t.events = before ++ e :: .interrupted :: after) :
    ∃ r n, o = some r ∧ Struck env execution polling started (env.replay s (before ++ [e])) e r n ∧
      t.events.countP Event.isCancel = n := by
  have hnone : Event.Headed ([] : List Event) := nofun
  generalize hflag : false = flag at h
  -- on the rounds: in a last one each event decides on its own, in any other one none is struck
  induction h generalizing before with
  | unfollowed s flag => simp at hx
  | interrupted => cases hflag
  | failed rounds s err raised =>
    rw [← Trace.append_nil (Trace.told _ _ _)] at hx ⊢
    rcases Event.raise_in hnone hx with ⟨-, rfl, rfl, -⟩ | ⟨before', -, h⟩
    · exact ⟨_, 0, rfl, .failed err, countP_cancel_told _ _ _ _⟩
    · simp at h
  | finished rounds s p raised line done =>
    rcases Event.raise_in hnone hx with ⟨-, rfl, rfl, -⟩ | ⟨before', -, h⟩
    · exact ⟨_, 0, rfl, .finished p done, countP_cancel_told _ _ _ _⟩
    · simp at h
  | late rounds s p raised a raised' line running passed =>
    rcases Event.raise_in (headed_told _ _ _ _) hx with ⟨-, rfl, rfl, -⟩ | ⟨before', -, h⟩
    · refine ⟨_, 1, rfl, .late p running passed, ?_⟩
      rw [countP_cancel_told, countP_cancel_told]
      rfl
    · exact (not_wait_of_cancelled he h).elim
  | stopped rounds s p raised nap a raised' line running early woken =>
    have hcount : (.told (.progress execution) (.ok p) raised ++ (nap ++
        (.told (.cancel execution) a raised' ++ .noted line)) : Trace).events.countP
          Event.isCancel = 1 := by
      rw [countP_cancel_told, woken.countP_cancel, countP_cancel_told]
      rfl
    rcases Event.raise_in (woken.headed (headed_told _ _ _ _)) hx with
      ⟨-, rfl, rfl, -⟩ | ⟨before', -, h⟩
    · exact ⟨_, 1, rfl, .stopped p running early, hcount⟩
    · rcases woken.struck (headed_told _ _ _ _) h with ⟨-, n, rfl⟩ | ⟨before'', -, h⟩
      · exact ⟨_, 1, rfl, .woken n, hcount⟩
      · exact (not_wait_of_cancelled he h).elim
  | again rounds s p nap t o running early slept rest ih =>
    rcases Event.raise_in (slept.headed rest.headed) hx with ⟨h, -⟩ | ⟨before₁, rfl, hx₁⟩
    · cases h
    rcases slept.struck rest.headed hx₁ with ⟨h, -⟩ | ⟨before₂, rfl, hx₂⟩
    · cases h
    obtain ⟨r, n, ho, hstruck, hcount⟩ := ih hx₂ rfl
    refine ⟨r, n, ho, ?_, ?_⟩
    · have hreplay : env.replay s ((.asked (.progress execution) (.ok p) :: nap.events) ++
          (before₂ ++ [e])) = env.replay (env.replay s
            (.asked (.progress execution) (.ok p) :: nap.events)) (before₂ ++ [e]) :=
        Environment.replay_append _ _ _ _
      rw [← hreplay] at hstruck
      simpa using hstruck
    · rw [countP_cancel_told, slept.countP_cancel, hcount]
      exact Nat.zero_add n

theorem Watch.not_start {execution : Execution} {polling : Polling} {started rounds : Nat} {s : σ}
    {flag : Bool} {t : Trace} {o : Option (Except OrchestrationError Unit)}
    (h : Watch env execution polling started rounds s flag t o) {e : Event} (he : e ∈ t.events) :
    e.isStart = false := by
  cases e with
  | launched | slept | interrupted => rfl
  | asked call a =>
    have hmem : (⟨call, a⟩ : Exchange) ∈ t.exchanges := List.mem_filterMap.mpr ⟨_, he, rfl⟩
    have hcall : call = .progress execution ∨ call = .cancel execution := h.awaited.kinds _ hmem
    rcases hcall with rfl | rfl <;> rfl

/-- The work that a request starts is neither waited for nor cancelled by that. -/
theorem Request.triggered_kinds (request : Request) (c : Configuration)
    (a : Except EngineError Execution) : (request.triggered c a).event.isWait = false ∧
      (request.triggered c a).event.isQuery = false ∧
        (request.triggered c a).event.isCancel = false := by
  cases request <;> exact ⟨rfl, rfl, rfl⟩

theorem Watch.not_wait {execution : Execution} {polling : Polling} {started rounds : Nat} {s : σ}
    {t : Trace} {o : Option (Except OrchestrationError Unit)}
    (h : Watch env execution polling started rounds s true t o) {before after : List Event}
    {e : Event} (he : e.isWait = true) (hx : t.events = before ++ e :: .interrupted :: after) :
    False := by
  cases h with
  | unfollowed => simp at hx
  | interrupted rounds s a raised line => exact not_wait_of_cancelled he hx

namespace Task

theorem Labour.struck {ctx : Orchestration} {task : Task} {c : Configuration} {s : σ} {flag : Bool}
    {t : Trace} {o : Option (Except OrchestrationError Unit)}
    (h : Labour env ctx task c s flag t o) {before after : List Event} {e : Event}
    (he : e.isWait = true) (hx : t.events = before ++ e :: .interrupted :: after) :
    ∃ execution mid r n, before = (task.request.triggered c (.ok execution)).event :: mid ∧
      o = some r ∧
      Struck env execution ctx.polling
        (env.clock (env.next s (task.request.triggered c (.ok execution)).event))
        (env.replay s (before ++ [e])) e r n ∧ t.events.countP Event.isCancel = n := by
  have hnone : Event.Headed ([] : List Event) := nofun
  have hkinds := task.request.triggered_kinds c
  cases h with
  | forestalled line => simp [Trace.noted] at hx
  | refused err raised =>
    rw [← Trace.append_nil (Exchange.told _ _)] at hx
    rcases Event.raise_in hnone hx with ⟨-, -, rfl, -⟩ | ⟨before', -, h⟩
    · rw [(hkinds _).1] at he
      cases he
    · simp at h
  | started execution raised line s' t o after watch =>
    rcases Event.raise_in watch.headed hx with ⟨-, -, rfl, -⟩ | ⟨before', rfl, hx₁⟩
    · rw [(hkinds _).1] at he
      cases he
    cases raised with
    | true => exact (watch.not_wait he hx₁).elim
    | false =>
      obtain ⟨r, n, ho, hstruck, hcount⟩ := watch.struck he hx₁
      subst after
      refine ⟨execution, before', r, n, rfl, ho, hstruck, ?_⟩
      rw [countP_cancel_told, (hkinds _).2.2]
      exact (Nat.zero_add _).trans hcount

theorem Labour.struck_at_start {ctx : Orchestration} {task : Task} {c : Configuration} {s : σ}
    {flag : Bool} {t : Trace} {o : Option (Except OrchestrationError Unit)}
    (h : Labour env ctx task c s flag t o) {before after : List Event} {e : Event}
    (he : e.isStart = true) (hrounds : 0 < ctx.rounds)
    (hx : t.events = before ++ e :: .interrupted :: after) :
    o = some (.error .interrupted) ∧ (∀ x ∈ t.events, x.isQuery = false) ∧
      t.events.countP Event.isCancel = 1 := by
  have hnone : Event.Headed ([] : List Event) := nofun
  have hkinds := task.request.triggered_kinds c
  cases h with
  | forestalled line => simp [Trace.noted] at hx
  | refused err raised =>
    rw [← Trace.append_nil (Exchange.told _ _)] at hx
    rcases Event.raise_in hnone hx with ⟨-, -, rfl, -⟩ | ⟨before', -, h⟩
    · cases task <;> cases he
    · simp at h
  | started execution raised line s' t o after watch =>
    rcases Event.raise_in watch.headed hx with ⟨rfl, -, -, -⟩ | ⟨before', -, hx₁⟩
    · -- the waiting begins with the flag up, so its first round cancels
      generalize ctx.rounds = rounds at watch hrounds
      cases watch with
      | unfollowed => cases hrounds
      | interrupted rounds s a raised' line' =>
        refine ⟨rfl, ?_, ?_⟩
        · intro x hmem
          simp only [Trace.told, Trace.noted, Trace.events_append, List.nil_append,
            List.append_nil, if_true, List.cons_append, List.mem_cons] at hmem
          rcases hmem with rfl | rfl | rfl | hmem
          · exact (hkinds _).2.1
          · rfl
          · rfl
          · cases raised' <;> simp at hmem
            rw [hmem]
            rfl
        · rw [countP_cancel_told, (hkinds _).2.2]
          have hone := countP_cancel_told (.cancel execution) a raised' (.noted line')
          exact (Nat.zero_add _).trans hone
    · have hmem : e ∈ t.events := by
        rw [hx₁]
        simp
      rw [watch.not_start hmem] at he
      cases he

end Task

/-- An event that stands in the middle one of three histories only, with an interrupt that came in
during it. -/
theorem Event.raise_between {a b c before after : List Event} {e : Event} (ha : e ∉ a) (hc : e ∉ c)
    (hheaded : Headed c) (h : a ++ (b ++ c) = before ++ e :: .interrupted :: after) :
    ∃ before' after', before = a ++ before' ∧ b = before' ++ e :: .interrupted :: after' ∧
      after = after' ++ c := by
  rcases append_split h with ⟨before', hbefore, hb⟩ | ⟨rest, ha', -⟩
  · rcases append_split hb with ⟨rest, -, hc'⟩ | ⟨rest, hb', hrest⟩
    · rw [hc'] at hc
      exact absurd (List.mem_append_right _ List.mem_cons_self) hc
    -- the interrupt came in during the event, so it does not begin the third history
    · rcases rest with _ | ⟨y, rest⟩
      · exact absurd hrest.symm (hheaded after)
      · obtain ⟨rfl, rfl⟩ := List.cons.inj hrest
        exact ⟨before', rest, hbefore, hb', rfl⟩
  · rw [ha'] at ha
    exact absurd (List.mem_append_right _ List.mem_cons_self) ha

/-- The guarded part ended with a result; the events after some event of it include a whole restore,
and the result of the orchestration is put together from the two. -/
inductive Request.Ends (request : Request) (o : Option (Except OrchestrationError Outcome))
    (after : List Event) (r : Except OrchestrationError Unit) : Prop
  | restored (g : Guard) (waiting restoring : List Event) (failures : List RestoreFailure)
    (parts : after = waiting ++ restoring)
    (restores : g.Restores (restoring.filterMap Event.exchange?) failures)
    (result : o = some (concludeResult (r.map fun _ => request.outcome g) failures)) :
    request.Ends o after r

theorem Event.not_mem_of_idle {e : Event} (he : e.isWork = true) {events : List Event}
    (h : ∀ x ∈ events, x.isWork = false) : e ∉ events := by
  intro hmem
  rw [h e hmem] at he
  cases he

/-- A part of the work during which the interrupt comes in stands in the labour of a region. -/
theorem Task.Region.labour_of_work {ctx : Orchestration} {task : Task} {g : Guard} {s : σ}
    {flag : Bool} {t : Trace} {o : Option (Except OrchestrationError Unit × Guard)}
    (h : Task.Region env ctx task g s flag t o) {pre post before after : List Event} {e : Event}
    (he : e.isWork = true) (hpre : ∀ x ∈ pre, x.isWork = false)
    (hpost : ∀ x ∈ post, x.isWork = false) (hheaded : Event.Headed post)
    (hx : pre ++ (t.events ++ post) = before ++ e :: .interrupted :: after) :
    ∃ mid labour flag' o' g' before' after', t.events = mid ++ labour.events ∧
      (∀ x ∈ mid, x.isWork = false) ∧
      Task.Labour env ctx task g.configuration (env.replay s mid) flag' labour o' ∧
      o = o'.map (·, g') ∧ before = pre ++ (mid ++ before') ∧
      labour.events = before' ++ e :: .interrupted :: after' ∧ after = after' ++ post := by
  cases h with
  | failed redirection alteration err altering =>
    -- nothing here is a part of the work
    have hidle : ∀ x ∈ pre ++ ((redirection ++ alteration).events ++ post), x.isWork = false := by
      intro x hmem
      rw [List.mem_append, List.mem_append] at hmem
      rcases hmem with hmem | hmem | hmem
      · exact hpre x hmem
      · exact altering.idle x hmem
      · exact hpost x hmem
    have habsent := Event.not_mem_of_idle he hidle
    rw [hx] at habsent
    simp at habsent
  | worked redirection alteration labour o' altering labours =>
    have hidle : ∀ x ∈ pre ++ (redirection ++ alteration).events, x.isWork = false := by
      intro x hmem
      exact (List.mem_append.mp hmem).elim (hpre x) (altering.idle x)
    rw [Trace.events_append, List.append_assoc, ← List.append_assoc] at hx
    obtain ⟨before', after', hbefore, hlabour, hafter⟩ := Event.raise_between
      (Event.not_mem_of_idle he hidle) (Event.not_mem_of_idle he hpost) hheaded hx
    rw [List.append_assoc] at hbefore
    exact ⟨_, labour, _, o', _, before', after', rfl, altering.idle, labours, rfl, hbefore, hlabour,
      hafter⟩

/-- An interrupt that comes in during a part of the work decides about the rest of it. -/
theorem Course.labour_of_work {ctx : Orchestration} {request : Request} {s : σ} {flag : Bool}
    {t : Trace} {o : Option (Except OrchestrationError Outcome)}
    (h : Course env ctx request s flag t o) {before after : List Event} {e : Event}
    (he : e.isWork = true) (hx : t.events = before ++ e :: .interrupted :: after) :
    ∃ pre post task c flag' labour o' before' after', Task.request task = request ∧
      Task.Labour env ctx task c (env.replay s pre) flag' labour o' ∧
      t.events = pre ++ (labour.events ++ post) ∧ (∀ x ∈ pre, x.isWork = false) ∧
      (∀ x ∈ post, x.isWork = false) ∧ before = pre ++ before' ∧
      labour.events = before' ++ e :: .interrupted :: after' ∧
      ∀ r, o' = some r → request.Ends o after r := by
  have hboth {a b : List Event} (ha : ∀ x ∈ a, x.isWork = false) (hb : ∀ x ∈ b, x.isWork = false) :
      ∀ x ∈ a ++ b, x.isWork = false :=
    fun x hmem => (List.mem_append.mp hmem).elim (ha x) (hb x)
  cases h with
  | unprepared planning err awake preparing =>
    have habsent := Event.not_mem_of_idle he (preparing.idle awake)
    rw [hx] at habsent
    simp at habsent
  | unfinished planning work task g awake preparing prepared region =>
    have hplanning := preparing.idle awake
    have hend : planning.events ++ (work.events ++ []) = before ++ e :: .interrupted :: after := by
      rwa [List.append_nil]
    have hnothing : ∀ x ∈ ([] : List Event), x.isWork = false := nofun
    have hheaded : Event.Headed [] := nofun
    obtain ⟨mid, labour, flag', o', g', before', after', hwork, hmid, hlabour, ho, hbefore, hraise,
      -⟩ := region.labour_of_work he hplanning hnothing hheaded hend
    refine ⟨planning.events ++ mid, [], task, g.configuration, flag', labour, o', before', after',
      prepared.facts.1, ?_, ?_, hboth hplanning hmid, hnothing, ?_, hraise, ?_⟩
    · rwa [Environment.replay_append]
    · rw [Trace.events_append, hwork, List.append_nil, List.append_assoc]
    · rw [hbefore, List.append_assoc]
    · intro r h
      obtain rfl := h
      cases ho
  | finished planning work restoration line task g result g' failures awake preparing prepared
      region restored quiet headed =>
    have hplanning := preparing.idle awake
    have hrestoring := restored.idle quiet line
    have hheaded : Event.Headed (restoration ++ .noted line).events := by
      rw [Trace.events_append, Trace.noted, List.append_nil]
      exact headed
    obtain ⟨mid, labour, flag', o', g₁, before', after', hwork, hmid, hlabour, ho, hbefore, hraise,
      hafter⟩ := region.labour_of_work he hplanning hrestoring hheaded hx
    refine ⟨planning.events ++ mid, _, task, g.configuration, flag', labour, o', before', after',
      prepared.facts.1, ?_, ?_, hboth hplanning hmid, hrestoring, ?_, hraise, ?_⟩
    · rwa [Environment.replay_append]
    · rw [Trace.events_append, Trace.events_append, hwork, List.append_assoc, List.append_assoc]
    · rw [hbefore, List.append_assoc]
    · intro r h
      obtain rfl := h
      cases ho
      refine .restored g' after' _ failures hafter ?_ rfl
      have hexchanges : (restoration ++ .noted line).exchanges = restoration.exchanges := by
        rw [Trace.exchanges_append, Trace.exchanges_noted, List.append_nil]
      rw [Trace.exchanges] at hexchanges
      rw [hexchanges]
      exact restored.restores

/-- What holds of a run in which the interrupt comes in during an event. -/
structure Request.Heeds (request : Request) (env : Environment σ) (ctx : Orchestration) (s : σ)
    (o : Option (Except OrchestrationError Outcome)) (events before : List Event) (e : Event)
    (after : List Event) : Prop where
  /-- No work is started and none is asked after from then on. -/
  still : ∀ x ∈ after, x.pursues = false
  /-- Where none had been started, none is in the whole run. -/
  forestalled : (∀ x ∈ before ++ [e], x.isTrigger = false) → ∀ x ∈ events, x.isTrigger = false
  /-- A run that is started just then is cancelled without a query, if it is followed at all. -/
  started : e.isStart = true → 0 < ctx.rounds → (∀ x ∈ events, x.isQuery = false) ∧
    events.countP Event.isCancel = 1 ∧ request.Ends o after (.error .interrupted)
  /-- Otherwise it is the part of the waiting that decides. -/
  waited : e.isWait = true → ∃ pre c execution mid r n,
    before = pre ++ (request.triggered c (.ok execution)).event :: mid ∧
      Struck env execution ctx.polling
        (env.clock (env.replay s (pre ++ [(request.triggered c (.ok execution)).event])))
        (env.replay s (before ++ [e])) e r n ∧
      events.countP Event.isCancel = n ∧ request.Ends o after r

theorem Event.isTrigger_of_pursues {e : Event} (h : e.pursues = false) : e.isTrigger = false := by
  cases e with
  | asked call a => cases call <;> first | rfl | cases h
  | launched | slept | interrupted => rfl

theorem Event.countP_cancel_of_idle {events : List Event} (h : ∀ x ∈ events, x.isWork = false) :
    events.countP isCancel = 0 := by
  rw [List.countP_eq_zero]
  intro x hx
  rw [(kinds_of_idle (h x hx)).2.2.2.2]
  exact Bool.false_ne_true

theorem Event.isQuery_of_idle {events : List Event} (h : ∀ x ∈ events, x.isWork = false) :
    ∀ x ∈ events, x.isQuery = false :=
  fun x hx => (kinds_of_idle (h x hx)).2.2.2.1

theorem Course.heeds_in {ctx : Orchestration} {request : Request} {s : σ} {flag : Bool} {t : Trace}
    {o : Option (Except OrchestrationError Outcome)} (h : Course env ctx request s flag t o)
    {before after : List Event} {e : Event}
    (hx : t.events = before ++ e :: .interrupted :: after) :
    request.Heeds env ctx s o t.events before e after := by
  have hstill : ∀ x ∈ after, x.pursues = false := by
    have hheeds := h.heeds
    rw [hx, Event.heeds_append] at hheeds
    have hafter := hheeds.2.2.2
    simp only [Event.isInterrupt, Bool.or_true] at hafter
    exact hafter.still
  constructor
  · exact hstill
  · intro hbefore x hmem
    rw [hx, List.append_cons, List.mem_append, List.mem_cons] at hmem
    rcases hmem with hmem | rfl | hmem
    · exact hbefore x hmem
    · rfl
    · exact Event.isTrigger_of_pursues (hstill x hmem)
  · intro hstart hrounds
    obtain ⟨pre, post, task, c, flag', labour, o', before', after', htask, hlabour, hevents, hpre,
      hpost, hbefore, hraise, hends⟩ := h.labour_of_work (Event.isWork_of_isStart hstart) hx
    obtain ⟨ho, hquery, hcancel⟩ := hlabour.struck_at_start hstart hrounds hraise
    refine ⟨?_, ?_, hends _ ho⟩
    · intro x hmem
      rw [hevents, List.mem_append, List.mem_append] at hmem
      rcases hmem with hmem | hmem | hmem
      · exact Event.isQuery_of_idle hpre x hmem
      · exact hquery x hmem
      · exact Event.isQuery_of_idle hpost x hmem
    · rw [hevents, List.countP_append, List.countP_append, Event.countP_cancel_of_idle hpre, hcancel,
        Event.countP_cancel_of_idle hpost]
  · intro hwait
    obtain ⟨pre, post, task, c, flag', labour, o', before', after', rfl, hlabour, hevents, hpre,
      hpost, rfl, hraise, hends⟩ := h.labour_of_work (Event.isWork_of_isWait hwait) hx
    obtain ⟨execution, mid, r, n, rfl, ho, hstruck, hcount⟩ := hlabour.struck hwait hraise
    refine ⟨pre, c, execution, mid, r, n, rfl, ?_, ?_, hends r ho⟩
    · rw [List.append_assoc, Environment.replay_append, Environment.replay_append]
      exact hstruck
    · rw [hevents, List.countP_append, List.countP_append, Event.countP_cancel_of_idle hpre, hcount,
        Event.countP_cancel_of_idle hpost, Nat.zero_add, Nat.add_zero]

/-- However the engine answers, and at whatever event the interrupt comes in, an orchestration heeds
it; so does one that begins with the flag up. -/
theorem orchestrate_heeds (env : Environment σ) (ctx : Orchestration) (request : Request)
    (w : World σ) :
    ∃ events, (Session.run (request.orchestrate ctx).run env w).2.events = w.events ++ events ∧
      (w.interrupted = true → ∀ e ∈ events, e.pursues = false) ∧
      ∀ before e after, events = before ++ e :: .interrupted :: after →
        request.Heeds env ctx w.outside (Session.run (request.orchestrate ctx).run env w).1 events
          before e after := by
  have htraces : Traces env w (request.orchestrate ctx).run
    (Course env ctx request w.outside w.interrupted) := traces_orchestrate ctx request
  obtain ⟨t, hl, hcourse⟩ := htraces
  refine ⟨t.events, hl.events, ?_, fun before e after hx => hcourse.heeds_in hx⟩
  intro hw
  have hheeds := hcourse.heeds
  rw [hw] at hheeds
  exact hheeds.still

end GuardedRun
