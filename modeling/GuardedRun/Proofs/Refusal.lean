import GuardedRun.Proofs.Protocol

/-! What an orchestration may fail with, and when. The errors of planning are raised before anything
is guarded; what fails under the guard has errors of its own. -/

namespace GuardedRun

variable {σ : Type} {env : Environment σ} {w : World σ}

open Session

namespace OrchestrationError

/-- The errors of planning: the project, the configuration, a test set or some test cases were not
there, or a read failed. -/
def isOfPlanning : OrchestrationError → Bool
  | projectOpenFailed _ _ _ | configNotFound _ | testSetNotFound _ | partialScenarioMatch _ _ _ => true
  | remoteFault stage _ => stage = .resolve
  | _ => false

end OrchestrationError

namespace Call

/-- The call changes something in the engine, or starts work there. -/
def isEffect (c : Call) : Bool := c.isMutation || c.isTrigger

theorem isEffect_of_isRead {c : Call} (h : c.isRead = true) : c.isEffect = false := by
  cases c <;> first | rfl | cases h

end Call

/-- Planning has no effect; at most it opens a project. -/
theorem Request.Planning.effectless {request : Request} {xs : List Exchange}
    (h : request.Planning xs) : ∀ x ∈ xs, x.call.isEffect = false := by
  intro x hx
  rcases h.kinds x hx with hread | hopen
  · exact Call.isEffect_of_isRead hread
  · rw [hopen]
    rfl

/-- What work may fail with once the changes are made. -/
inductive Thwarted : OrchestrationError → Prop
  | trigger (source) : Thwarted (.remoteFault .trigger source)
  | poll (source) : Thwarted (.remoteFault .poll source)
  | late (seconds) : Thwarted (.pollDeadlineExceeded seconds)
  | interrupted : Thwarted .interrupted

theorem Thwarted.not_ofPlanning {e : OrchestrationError} (h : Thwarted e) : e.isOfPlanning = false := by
  cases h <;> rfl

theorem Watch.thwarted {execution : Execution} {polling : Polling} {started rounds : Nat} {s : σ}
    {flag : Bool} {t : Trace} {e : OrchestrationError}
    (h : Watch env execution polling started rounds s flag t (some (.error e))) : Thwarted e := by
  generalize ho : some (Except.error e) = o at h
  induction h with
  | unfollowed | finished => cases ho
  | failed rounds s source raised =>
    cases ho
    exact .poll source
  | late rounds s p raised a raised' line running passed =>
    cases ho
    exact .late _
  | interrupted | stopped =>
    cases ho
    exact .interrupted
  | again rounds s p nap t o running early slept rest ih => exact ih ho

namespace Task

variable {ctx : Orchestration} {task : Task} {g g' : Guard} {s : σ} {flag : Bool} {t : Trace}
  {e : OrchestrationError}

theorem Labour.thwarted {c : Configuration}
    (h : Labour env ctx task c s flag t (some (.error e))) : Thwarted e := by
  generalize ho : some (Except.error e) = o at h
  cases h with
  | forestalled line =>
    cases ho
    exact .interrupted
  | refused source raised =>
    cases ho
    exact .trigger source
  | started execution raised line s' t o after watch =>
    rw [← ho] at watch
    exact watch.thwarted

/-- A task fails in its changes or in its work. -/
theorem Region.of_error (h : Region env ctx task g s flag t (some (.error e, g'))) :
    (∃ redirection alteration, t = redirection ++ alteration ∧
      Altering task g redirection alteration (.error e)) ∨ Thwarted e := by
  generalize ho : some (Except.error e, g') = o at h
  cases h with
  | failed redirection alteration e' altering =>
    cases ho
    exact .inl ⟨redirection, alteration, rfl, altering⟩
  | worked redirection alteration labour o' altering labours =>
    obtain ⟨r, hr, hpair⟩ := Option.map_eq_some_iff.mp ho.symm
    cases hpair
    rw [hr] at labours
    exact .inr labours.thwarted

theorem Blames.not_ofPlanning (h : task.Blames e) : e.isOfPlanning = false := by
  cases task with
  | execution request plan names => cases h <;> rfl
  | report request assignment =>
    obtain ⟨source, rfl⟩ := h
    rfl

end Task

/-- A failure is that of the work, or the restore was not complete. -/
theorem concludeResult_error {α : Type} {result : Except OrchestrationError α}
    {failures : List RestoreFailure} {e : OrchestrationError}
    (h : concludeResult result failures = .error e) :
    result = .error e ∨ ∃ steps cause, e = .restoreIncomplete steps cause := by
  unfold concludeResult at h
  split at h
  · exact .inl h
  · split at h
    · exact .inl h
    · cases h
      exact .inr ⟨_, _, rfl⟩

/-- Where an error comes from. Planning raises it before there is a guard, or the changes or the work
of a task fail with it, unless the restore has one of its own to report. -/
inductive Refused (ctx : Orchestration) (request : Request) (xs : List Exchange) :
    OrchestrationError → Prop
  | planning {e} (plans : request.Planning xs) : Refused ctx request xs e
  | altering {e planning redirection alteration task g} (later)
    (parts : xs = planning ++ (redirection.exchanges ++ alteration.exchanges) ++ later)
    (prepared : request.Prepared ctx planning task g)
    (altering : Task.Altering task g redirection alteration (.error e)) : Refused ctx request xs e
  | thwarted {e} (thwarted : Thwarted e) : Refused ctx request xs e
  | incomplete (steps cause) : Refused ctx request xs (.restoreIncomplete steps cause)

theorem Course.refused {ctx : Orchestration} {request : Request} {s : σ} {flag : Bool} {t : Trace}
    {e : OrchestrationError} (h : Course env ctx request s flag t (some (.error e))) :
    Refused ctx request t.exchanges e := by
  generalize ho : some (Except.error e) = o at h
  cases h with
  | unprepared planning e' awake preparing =>
    obtain ⟨c, ys, zs, hparts, hplanning, hreadings, -⟩ := preparing.planning
    rw [hparts]
    exact .planning (hplanning.append hreadings.kinds)
  | unfinished => cases ho
  | finished planning work restoration line task g result g' failures awake preparing prepared
      region restored =>
    -- the restore hides a failure of the work or passes it on as it is
    rcases concludeResult_error (Option.some.inj ho).symm with hresult | ⟨steps, cause, rfl⟩
    · cases result with
      | ok _ => cases hresult
      | error e' =>
        cases hresult
        rcases region.of_error with ⟨redirection, alteration, rfl, altering⟩ | hthwarted
        · refine .altering restoration.exchanges ?_ prepared altering
          simp
        · exact .thwarted hthwarted
    · exact .incomplete steps cause

/-- Only planning has errors of planning. -/
theorem Refused.planning_of_ofPlanning {ctx : Orchestration} {request : Request} {xs : List Exchange}
    {e : OrchestrationError} (h : Refused ctx request xs e) (he : e.isOfPlanning = true) :
    request.Planning xs := by
  cases h with
  | planning plans => exact plans
  | altering later parts prepared altering =>
    rw [(altering.blamed e rfl).not_ofPlanning] at he
    cases he
  | thwarted thwarted =>
    rw [thwarted.not_ofPlanning] at he
    cases he
  | incomplete => cases he

/-- An orchestration that fails with an error of planning has changed nothing and started nothing;
once it has changed or started something, whatever it fails with is no error of planning. -/
theorem orchestrate_plans_purely (env : Environment σ) (ctx : Orchestration) (request : Request)
    (w w' : World σ) (e : OrchestrationError)
    (h : Session.run (request.orchestrate ctx).run env w = (some (.error e), w')) :
    ∃ events, w'.events = w.events ++ events ∧
      (e.isOfPlanning = true →
        ∀ x ∈ events.filterMap Event.exchange?, x.call.isEffect = false) ∧
      ((∃ x ∈ events.filterMap Event.exchange?, x.call.isEffect = true) →
        e.isOfPlanning = false) := by
  obtain ⟨t, hevents, hcourse⟩ := orchestrate_course env ctx request w
  rw [h] at hevents hcourse
  have hpure : e.isOfPlanning = true → ∀ x ∈ t.exchanges, x.call.isEffect = false := by
    intro hplanning
    exact (hcourse.refused.planning_of_ofPlanning hplanning).effectless
  refine ⟨t.events, hevents, hpure, ?_⟩
  rintro ⟨x, hx, heffect⟩
  cases hplanning : e.isOfPlanning with
  | false => rfl
  | true =>
    have hnone := hpure hplanning x hx
    rw [heffect] at hnone
    cases hnone

def Name.checkout : ScenarioName := ⟨"Checkout", by decide +kernel⟩

/-- The error that an orchestration ended in, if it did. -/
def failure? : Option (Except OrchestrationError Outcome) → Option OrchestrationError
  | some (.error e) => some e
  | _ => none

/-- A request for the login and for a test case that the project does not have. -/
def checkoutRequest : ExecutionRequest :=
  { loginRequest with testCases := ⟨[.checkout, .login], by decide +kernel⟩ }

theorem checkout_plans_purely : ∃ w',
    Session.run ((Request.execution checkoutRequest).orchestrate { rounds := 3 }).run
      Rehearsal.environment { outside := Rehearsal.small } =
        (some (.error (.partialScenarioMatch 2 1 ["Checkout"])), w') ∧
    ∃ events, w'.events = [] ++ events ∧
      ∀ x ∈ events.filterMap Event.exchange?, x.call.isEffect = false := by
  have herror : failure? (Session.run ((Request.execution checkoutRequest).orchestrate
      { rounds := 3 }).run Rehearsal.environment { outside := Rehearsal.small }).1 =
        some (.partialScenarioMatch 2 1 ["Checkout"]) := by
    decide +kernel
  generalize hresult : Session.run ((Request.execution checkoutRequest).orchestrate
    { rounds := 3 }).run Rehearsal.environment { outside := Rehearsal.small } = result at herror ⊢
  rcases result with ⟨_ | e | outcome, w'⟩
  · cases herror
  · obtain rfl : e = .partialScenarioMatch 2 1 ["Checkout"] := Option.some.inj herror
    obtain ⟨events, hevents, hpure, -⟩ := orchestrate_plans_purely Rehearsal.environment
      { rounds := 3 } (.execution checkoutRequest) _ w' _ hresult
    exact ⟨w', rfl, events, hevents, hpure rfl⟩
  · cases herror

end GuardedRun
