import GuardedRun.Proofs.Application
import GuardedRun.Proofs.Restoration
import GuardedRun.Proofs.Planning
import GuardedRun.Proofs.Waiting

/-! The course of an orchestration as a whole: what is found out, what is changed under a guard, what
is started and waited for, and what is put back. Both orchestrations take the one course. -/

namespace GuardedRun

variable {σ ε α β : Type} {env : Environment σ} {w : World σ}

open MonadSession Session Guard

/-- A request for one of the orchestrations. -/
inductive Request
  | execution (request : ExecutionRequest)
  | report (request : ReportRequest)

namespace Request

def project : Request → Path
  | execution request => request.project
  | report request => request.project

def configuration : Request → ConfigName
  | execution request => request.configuration
  | report request => request.configuration

/-- The call that starts the work asked for, with its answer. -/
def triggered (request : Request) (configuration : Configuration)
    (answer : Except EngineError Execution) : Exchange :=
  match request with
  | execution _ => ⟨.run configuration, answer⟩
  | report _ => ⟨.regenerateReport configuration, answer⟩

end Request

/-- What an orchestration is about to do to a configuration. -/
inductive Task
  | execution (request : ExecutionRequest) (plan : Plan) (names : TemporaryNames)
  | report (request : ReportRequest) (assignment : Option (TestSet × List Item))

namespace Task

/-- The request that the task serves. -/
def request : Task → Request
  | execution request _ _ => .execution request
  | report request _ => .report request

def dataDir : Task → Option Path
  | execution request _ _ => some request.dataDir
  | report request _ => request.dataDir

def reportDir : Task → Option Path
  | execution request _ _ => some request.reportDir
  | report request _ => request.reportDir

/-- The items that the task changes. -/
def items : Task → List Item
  | execution _ plan _ => plan.items
  | report _ none => []
  | report _ (some (_, items)) => items

/-- Changes the items. -/
def alter : Task → Guarded σ OrchestrationError Unit
  | execution _ plan names => Guarded.applyPlan names plan
  | report _ none => pure ()
  | report _ (some (testSet, items)) => Guarded.assignAll testSet items

/-- Starts the work. -/
def start (task : Task) (configuration : Configuration) : Guarded σ EngineError Execution :=
  match task with
  | execution _ _ _ => ask (.run configuration)
  | report _ _ => ask (.regenerateReport configuration)

/-- All that the task does under a guard. -/
def perform (ctx : Orchestration) : Task → Guarded σ OrchestrationError Unit
  | execution request plan names => Guarded.runExecution ctx request plan names
  | report request assignment => Guarded.runReport ctx request assignment

/-- The calls of the changes to the items where all went well. -/
inductive Altered (project : Project) : Task → List Exchange → Prop
  | execution {plan xs} (request names) (h : Applied project plan xs) :
    Altered project (.execution request plan names) xs
  | nothing (request) : Altered project (.report request none) []
  | report {testSet items xs} (request) (h : AssignedAll testSet items xs) :
    Altered project (.report request (some (testSet, items))) xs

/-- The order in which things are done for a task, with the words of the log left open. -/
def conduct (ctx : Orchestration) (task : Task) (event message : String)
    (line : Configuration → LogLine) : Guarded σ OrchestrationError Unit := do
  atStage .mutate (Guard.redirectDirectories task.dataDir task.reportDir)
  task.alter
  Guarded.checkInterrupt event message
  let guard ← get
  let execution ← atStage .trigger (task.start guard.configuration)
  note (line guard.configuration)
  (Attempt.waitForCompletion execution ctx.polling ctx.rounds).guarded

/-- Both orchestrations do the same things in the same order, and note them under names of their own. -/
theorem perform_eq (ctx : Orchestration) (task : Task) :
    ∃ event message line,
      (task.perform ctx : Guarded σ OrchestrationError Unit) =
        task.conduct ctx event message line ∧
      event ∈ ["execution.interrupted", "report.interrupted"] ∧
      ∀ c, (line c).event ∈ ["execution.triggered", "report.triggered"] := by
  cases task with
  | execution request plan names =>
    refine ⟨"execution.interrupted", "interrupted before the run was triggered",
      fun c => ⟨.info, "execution.triggered", s!"execution of `{c.name}` started"⟩, ?_, ?_, ?_⟩
    · rfl
    · exact List.mem_cons_self
    · exact fun c => List.mem_cons_self
  | report request assignment =>
    refine ⟨"report.interrupted", "interrupted before report regeneration was triggered",
      fun c => ⟨.info, "report.triggered",
        s!"overview report regeneration of `{c.name}` started"⟩, ?_, ?_, ?_⟩
    · cases assignment <;> rfl
    · exact List.mem_cons_of_mem _ List.mem_cons_self
    · exact fun c => List.mem_cons_of_mem _ List.mem_cons_self

variable {g : Guard}

/-- A call that changes the task's items or test sets; a report's task only assigns them. -/
structure Alters (task : Task) (c : Call) : Prop extends Change task.items c where
  assigns : ∀ request assignment, task = .report request assignment → c.isAssignment = true

/-- What the changes of a task may fail with. -/
def Blames : Task → OrchestrationError → Prop
  | execution _ _ names, e => Blamed names e
  | report _ _, e => ∃ source, e = .remoteFault .mutate source

theorem Blames.call (task : Task) (source : EngineError) :
    task.Blames (.remoteFault .mutate source) := by
  cases task with
  | execution request plan names => exact Blamed.call source
  | report request assignment => exact ⟨source, rfl⟩

theorem performs_alter (task : Task) :
    Performs env w g task.alter task.Alters task.Blames fun xs _ => Altered g.project task xs := by
  rcases task with ⟨request, plan, names⟩ | ⟨request, _ | ⟨testSet, items⟩⟩
  · apply (performs_applyPlan names plan).mono (fun _ hc => ⟨hc, nofun⟩)
    intro xs u h
    exact .execution request names h
  · exact .pure (.nothing request)
  · apply (performs_assignAll testSet items items (List.Subset.refl _) (Blames.call _)).mono
      (fun _ hc => ⟨hc.toChange, fun _ _ _ => hc.isAssignment⟩)
    intro xs u h
    exact .report request h

/-- The start of the work and the waiting for it, from a state of the outside and with the flag up or
down. -/
inductive Labour (env : Environment σ) (ctx : Orchestration) (task : Task) (c : Configuration)
    (s : σ) : Bool → Trace → Option (Except OrchestrationError Unit) → Prop
  | forestalled (line) : Labour env ctx task c s true (.noted line) (some (.error .interrupted))
  | refused (e raised) : Labour env ctx task c s false
    ((task.request.triggered c (.error e)).told raised) (some (.error (.remoteFault .trigger e)))
  | started (execution raised line s' t o)
    (after : s' = env.next s (task.request.triggered c (.ok execution)).event)
    (watch : Watch env execution ctx.polling (env.clock s') ctx.rounds s' raised t o) :
    Labour env ctx task c s false
      ((task.request.triggered c (.ok execution)).told raised ++ (.noted line ++ t)) o

/-- The changes made for a task: the directories first, then the items. Only a call that failed keeps
the directories from being redirected. -/
structure Altering (task : Task) (g : Guard) (redirection alteration : Trace)
    (r : Except OrchestrationError Unit) : Prop where
  redirects : ∀ x ∈ redirection.exchanges, x.call.isRedirect = true
  changes : ∀ x ∈ alteration.exchanges, task.Alters x.call
  carries : Carries (fun _ => True) g (redirection ++ alteration)
    (r, g.rememberAll (redirection ++ alteration).exchanges)
  redirected : (∀ source, r ≠ .error (.remoteFault .mutate source)) →
    redirection.exchanges = redirections g.configuration task.dataDir task.reportDir
  altered : r.isOk = true → Altered g.project task alteration.exchanges
  blamed : ∀ e, r = .error e → task.Blames e
  awake : (redirection ++ alteration).Awake

/-- What happens under the guard until it is restored. -/
inductive Region (env : Environment σ) (ctx : Orchestration) (task : Task) (g : Guard) (s : σ)
    (flag : Bool) : Trace → Option (Except OrchestrationError Unit × Guard) → Prop
  | failed (redirection alteration e) (altering : Altering task g redirection alteration (.error e)) :
    Region env ctx task g s flag (redirection ++ alteration)
      (some (.error e, g.rememberAll (redirection ++ alteration).exchanges))
  | worked (redirection alteration labour o)
    (altering : Altering task g redirection alteration (.ok ()))
    (labours : Labour env ctx task g.configuration
      (env.replay s (redirection ++ alteration).events)
      (flag || (redirection ++ alteration).raised) labour o) :
    Region env ctx task g s flag (redirection ++ alteration ++ labour)
      (o.map (·, g.rememberAll (redirection ++ alteration).exchanges))

theorem returns_checkInterrupt (event message : String) :
    Returns env w (Guarded.under g (Guarded.checkInterrupt event message)) fun t r =>
      (w.interrupted = true ∧ (∃ line, t = .noted line) ∧ r = (.error .interrupted, g)) ∨
        (w.interrupted = false ∧ t = {} ∧ r = (.ok (), g)) := by
  unfold Guarded.checkInterrupt
  apply Guarded.returns_bind (S := fun t r => t = {} ∧ r = (.ok w.interrupted, g))
  · rw [Guarded.under_lift]
    apply Returns.isInterrupted_bind
    exact .pure ⟨rfl, rfl⟩
  · intro t e g₁ h
    obtain ⟨-, hr⟩ := h
    cases hr
  · intro t a g₁ w₁ _ h
    obtain ⟨rfl, hr⟩ := h
    cases hr
    cases w.interrupted with
    | false => exact .pure (.inr ⟨rfl, rfl, rfl⟩)
    | true =>
      apply Guarded.returns_note_bind
      intro w₂
      exact .pure (.inl ⟨rfl, ⟨_, rfl⟩, rfl⟩)

theorem under_guarded (x : Attempt σ ε α) :
    Guarded.under g x.guarded = x.run >>= fun r => pure (r, g) := rfl

theorem returns_start (task : Task) (c : Configuration) :
    Returns env w (Guarded.under g (atStage .trigger (task.start c))) fun t r => ∃ a raised,
      t = (task.request.triggered c a).told raised ∧
        r = (a.mapError (.remoteFault .trigger), g) := by
  apply Guarded.returns_atStage (S := fun t r => ∃ a raised,
    t = (task.request.triggered c a).told raised ∧ r = (a, g))
  · have hask (call : Call) : Returns env w (Guarded.under g (ask call)) fun t r =>
        ∃ a raised, t = .told call a raised ∧ r = (a, g) := by
      change Returns env w (Session.ask call >>= fun a => pure (a, g)) _
      apply Returns.ask_bind
      intro raised a w₁ _
      exact .pure ⟨a, raised, by simp, rfl⟩
    cases task with
    | execution request plan names => exact hask (.run c)
    | report request assignment => exact hask (.regenerateReport c)
  · intro t e g₁ h
    obtain ⟨a, raised, rfl, hr⟩ := h
    cases hr
    exact ⟨.error e, raised, rfl, rfl⟩
  · intro t a g₁ h
    obtain ⟨b, raised, rfl, hr⟩ := h
    cases hr
    exact ⟨.ok a, raised, rfl, rfl⟩

theorem traces_awaited (ctx : Orchestration) (execution : Execution) (line : LogLine) :
    Traces env w (Guarded.under g do
        note line
        (Attempt.waitForCompletion execution ctx.polling ctx.rounds).guarded) fun t o =>
      ∃ t' o', t = .noted line ++ t' ∧ o = o'.map (·, g) ∧
        Watch env execution ctx.polling (env.clock w.outside) ctx.rounds w.outside w.interrupted
          t' o' := by
  apply Guarded.traces_bind (Guarded.returns_note (S := fun t r => t = .noted line ∧
    r = (.ok (), g)) ⟨rfl, rfl⟩)
  · intro t e g₁ h
    obtain ⟨-, hr⟩ := h
    cases hr
  · intro t u g₁ w₁ hl h
    obtain ⟨rfl, hr⟩ := h
    cases hr
    have houtside : w₁.outside = w.outside := hl.outside
    have hflag : w₁.interrupted = w.interrupted := by
      rw [hl.interrupted, Trace.raised_noted, Bool.or_false]
    rw [under_guarded]
    apply (Attempt.traces_waitForCompletion execution ctx.polling ctx.rounds).bind
    · intro t hwatch
      rw [houtside, hflag] at hwatch
      exact ⟨t, none, rfl, rfl, hwatch⟩
    · intro t r w₂ _ hwatch
      rw [houtside, hflag] at hwatch
      apply Traces.of_returns
      apply Returns.pure
      rw [Trace.append_nil]
      exact ⟨t, some r, rfl, rfl, hwatch⟩

theorem traces_labour (ctx : Orchestration) (task : Task) (event message : String)
    (line : Configuration → LogLine) :
    Traces env w (Guarded.under g do
        Guarded.checkInterrupt event message
        let guard ← get
        let execution ← atStage .trigger (task.start guard.configuration)
        note (line guard.configuration)
        (Attempt.waitForCompletion execution ctx.polling ctx.rounds).guarded) fun t o =>
      ∃ o', o = o'.map (·, g) ∧ Labour env ctx task g.configuration w.outside w.interrupted t o' := by
  apply Guarded.traces_bind (returns_checkInterrupt event message)
  -- with the flag up the work is not started
  · intro t e g₁ h
    rcases h with ⟨hw, ⟨line, rfl⟩, hr⟩ | ⟨hw, rfl, hr⟩
    · cases hr
      rw [hw]
      exact ⟨_, rfl, .forestalled line⟩
    · cases hr
  · intro t u g₁ w₁ hl h
    rcases h with ⟨hw, ⟨line, rfl⟩, hr⟩ | ⟨hw, rfl, hr⟩
    · cases hr
    cases hr
    have hdown : w₁.interrupted = false := by
      rw [hl.interrupted, hw, Trace.raised_nil, Bool.false_or]
    rw [Guarded.under_get_bind, hw]
    apply Guarded.traces_bind (returns_start task g.configuration)
    · intro t e g₁ h
      obtain ⟨a, raised, rfl, hr⟩ := h
      cases a with
      | ok execution => cases hr
      | error e =>
        cases hr
        exact ⟨_, rfl, .refused e raised⟩
    · intro t execution g₁ w₂ hl' h
      obtain ⟨a, raised, rfl, hr⟩ := h
      cases a with
      | error e => cases hr
      | ok _ =>
        cases hr
        obtain ⟨houtside, hflag⟩ := hl'.of_told
        have hstill : w₁.outside = w.outside := hl.outside
        rw [hstill] at houtside
        rw [hdown, Bool.false_or] at hflag
        apply (traces_awaited ctx execution (line g.configuration)).mono
        intro t o h
        obtain ⟨t', o', rfl, rfl, hwatch⟩ := h
        rw [hflag] at hwatch
        exact ⟨o', rfl, .started execution raised _ _ t' o' houtside hwatch⟩

theorem traces_perform (ctx : Orchestration) (task : Task) :
    Traces env w (Guarded.under g (task.perform ctx))
      (Region env ctx task g w.outside w.interrupted) := by
  obtain ⟨event, message, line, hconduct, -⟩ := perform_eq (σ := σ) ctx task
  rw [hconduct, conduct]
  apply Guarded.traces_bind
    ((performs_redirectDirectories task.dataDir task.reportDir).atStage
      (E := fun e => ∃ source, e = .remoteFault .mutate source) fun source => ⟨source, rfl⟩).clean
  -- a redirection failed, so the items are as they were
  · intro t e g₁ h
    obtain ⟨hq, -, hc, hblamed, -⟩ := h
    have hg : g₁ = g.rememberAll t.exchanges := hc.memory
    rw [hg] at hc ⊢
    obtain ⟨source, rfl⟩ := hblamed e rfl
    have hall : Altering task g t {} (.error (.remoteFault .mutate source)) := by
      refine ⟨hc.kind, nofun, ?_, fun hne => absurd rfl (hne source), nofun,
        fun _ he => Except.error.inj he ▸ Blames.call task source, hq.append Trace.awake_nil⟩
      rw [Trace.append_nil]
      exact hc.weaken fun _ _ => trivial
    have hr : Region env ctx task g w.outside w.interrupted (t ++ {})
      (some (.error (.remoteFault .mutate source), g.rememberAll (t ++ {}).exchanges)) :=
      .failed t {} _ hall
    rw [Trace.append_nil] at hr
    exact hr
  · intro t₁ u g₁ w₁ hl₁ h
    obtain ⟨hq₁, -, hc₁, -, hp₁⟩ := h
    have hg₁ : g₁ = g.rememberAll t₁.exchanges := hc₁.memory
    apply Guarded.traces_bind (performs_alter task).clean
    -- a change failed; the guard knows of it and of all before
    · intro t₂ e g₂ h
      obtain ⟨hq₂, -, hc₂, hblamed, -⟩ := h
      have hc := (hc₁.weaken fun _ _ => trivial).append (hc₂.weaken fun _ _ => trivial)
      have hg : g₂ = g.rememberAll (t₁ ++ t₂).exchanges := hc.memory
      rw [hg] at hc ⊢
      have hblames := hblamed e rfl
      exact .failed t₁ t₂ e ⟨hc₁.kind, hc₂.kind, hc, fun _ => hp₁ () rfl, nofun,
        fun _ he => Except.error.inj he ▸ hblames, hq₁.append hq₂⟩
    · intro t₂ v g₂ w₂ hl₂ h
      obtain ⟨hq₂, -, hc₂, -, hp₂⟩ := h
      have hc := (hc₁.weaken fun _ _ => trivial).append (hc₂.weaken fun _ _ => trivial)
      have hg : g₂ = g.rememberAll (t₁ ++ t₂).exchanges := hc.memory
      have halter : Altering task g t₁ t₂ (.ok ()) := by
        refine ⟨hc₁.kind, hc₂.kind, hg ▸ hc, fun _ => hp₁ () rfl, fun _ => ?_, nofun,
          hq₁.append hq₂⟩
        have hproject := hp₂ () rfl
        rwa [hg₁, project_rememberAll] at hproject
      have hl := hl₁.trans hl₂
      -- what is left is the work, as seen from the end of the changes
      apply (traces_labour ctx task event message line).mono
      intro t₃ o h
      obtain ⟨o', rfl, hlabour⟩ := h
      rw [hg, configuration_rememberAll, hl.outside, hl.interrupted] at hlabour
      rw [hg, ← Trace.append_assoc]
      exact .worked t₁ t₂ t₃ o' halter hlabour

end Task

namespace Guard

/-- The line that says that a restore was not complete. -/
def incomplete (failures : List RestoreFailure) : LogLine where
  level := .error
  event := "restore.incomplete"
  message :=
    let steps := "; ".intercalate (failures.map (·.message))
    s!"configuration left partially restored; manual intervention required: {steps}"

/-- A restore with what it notes, up to the announcement of what it left undone. -/
structure Restoration (g : Guard) (t : Trace) (failures : List RestoreFailure) : Prop where
  restores : g.Restores t.exchanges failures
  noted : ∀ failure ∈ failures, failure.line ∈ t.lines
  announced : failures ≠ [] → incomplete failures ∈ t.lines

theorem returns_announceIncomplete (failures : List RestoreFailure) :
    Returns env w (announceIncomplete failures) fun t _ =>
      t.exchanges = [] ∧ (failures ≠ [] → incomplete failures ∈ t.lines) := by
  unfold announceIncomplete
  cases failures with
  | nil => exact .pure ⟨rfl, fun h => absurd rfl h⟩
  | cons failure rest =>
    apply Returns.note
    exact ⟨rfl, fun _ => List.mem_singleton.mpr rfl⟩

theorem returns_restoration (g : Guard) :
    Returns env w (do
      let failures ← g.restore
      announceIncomplete failures
      return failures) g.Restoration := by
  apply Returns.bind (returns_restore g)
  intro t failures w₁ _ h
  obtain ⟨hr, he⟩ := h
  apply Returns.bind (returns_announceIncomplete failures)
  intro t' u w₂ _ h
  obtain ⟨hx, ha⟩ := h
  apply Returns.pure
  rw [Trace.append_nil]
  refine ⟨?_, ?_, ?_⟩
  · rwa [Trace.exchanges_append, hx, List.append_nil]
  · intro failure hf
    have hline : failure.line ∈ t.errors := he ▸ List.mem_map_of_mem hf
    rw [Trace.lines_append]
    exact List.mem_append_left _ (List.mem_filter.mp hline).1
  · intro hne
    rw [Trace.lines_append]
    exact List.mem_append_right _ (ha hne)

end Guard

namespace Request

/-- Carries the request out. -/
def orchestrate (ctx : Orchestration) : Request → Attempt σ OrchestrationError Outcome
  | execution request => Attempt.executeTestCases ctx request
  | report request => Attempt.regenerateReport ctx request

/-- What a success reports. -/
def outcome : Request → Guard → Outcome
  | execution request, guard =>
    { configuration := request.configuration, temporary := guard.temporaryNames,
      reassigned := guard.reassigned, deactivated := guard.deactivated }
  | report request, guard =>
    { configuration := request.configuration, temporary := [],
      reassigned := guard.reassigned, deactivated := [] }

/-- What there is to do for the request. -/
def plan (ctx : Orchestration) (project : Project) (configuration : Configuration) :
    Request → Attempt σ OrchestrationError Task
  | execution request => do
    let plan ← Attempt.planExecution project configuration request
    let names ← Attempt.temporaryNames project ctx.tempPattern
    return .execution request plan names
  | report request => do
    let assignment ← Attempt.planReport project configuration request.testSet
    return .report request assignment

/-- The configuration of the request, and what there is to do with it. -/
def survey (ctx : Orchestration) (project : Project) (request : Request) :
    Attempt σ OrchestrationError (Configuration × Task) := do
  let configuration ← Attempt.requireConfiguration project request.configuration
  let task ← request.plan ctx project configuration
  return (configuration, task)

/-- All that comes before the configuration is changed. -/
def prepare (ctx : Orchestration) (request : Request) :
    Attempt σ OrchestrationError (Task × Guard) := do
  let project ← Attempt.ensureProjectOpen request.project
  let (configuration, task) ← request.survey ctx project
  let guard ← atStage .resolve (Guard.start project configuration)
  return (task, guard)

/-- The orchestration of a request, with the words of the log left open. -/
def conduct (ctx : Orchestration) (request : Request) (done : Outcome → LogLine)
    (failed : OrchestrationError → LogLine) : Attempt σ OrchestrationError Outcome := do
  let (task, guard) ← request.prepare ctx
  let concluded ← liftSession ((task.perform ctx).conclude guard request.outcome)
  match concluded with
  | .ok outcome =>
    note (done outcome)
    return outcome
  | .error e =>
    note (failed e)
    throw e

/-- The last line of an orchestration that came as far as a guard. -/
def closing : Request → Except OrchestrationError Outcome → LogLine
  | execution _, .ok outcome => ⟨.info, "execution.done", outcome.summary⟩
  | execution _, .error e => ⟨.error, "execution.failed", e.message⟩
  | report request, .ok _ =>
    ⟨.info, "report.done", s!"overview report of `{request.configuration}` regenerated"⟩
  | report _, .error e => ⟨.error, "report.failed", e.message⟩

theorem orchestrate_conducts (ctx : Orchestration) (request : Request) :
    (request.orchestrate ctx : Attempt σ OrchestrationError Outcome) =
      request.conduct ctx (fun outcome => request.closing (.ok outcome))
        fun e => request.closing (.error e) := by
  cases request with
  | execution request =>
    simp only [orchestrate, conduct, prepare, survey, plan, Attempt.executeTestCases, bind_assoc,
      pure_bind]
    rfl
  | report request =>
    simp only [orchestrate, conduct, prepare, survey, plan, Attempt.regenerateReport, bind_assoc,
      pure_bind]
    rfl

theorem orchestrate_eq (ctx : Orchestration) (request : Request) :
    ∃ done failed, (request.orchestrate ctx : Attempt σ OrchestrationError Outcome) =
      request.conduct ctx done failed :=
  ⟨_, _, orchestrate_conducts ctx request⟩

/-- The calls that a report's assignment was made up from. -/
inductive Named (project : Project) (configuration : Configuration) :
    Option TestSetName → List Exchange → Option (TestSet × List Item) → Prop
  | nothing : Named project configuration none [] none
  | found {name testSets testSet items xs active}
    (found : testSets.find? (·.name = name) = some testSet) (picked : Picked items xs active) :
    Named project configuration (some name)
      (⟨.testSets project, .ok testSets⟩ :: ⟨.items configuration, .ok items⟩ :: xs)
      (some (testSet, active))

/-- The calls that a task was made up from. -/
inductive Planned (ctx : Orchestration) (project : Project) (configuration : Configuration) :
    Request → List Exchange → Task → Prop
  | execution {request xs ys requested plan testSets}
    (resolved : Resolved project request.testCases xs requested)
    (devised : Devised project configuration request.testCases requested request.testSet ys plan) :
    Planned ctx project configuration (.execution request)
      (xs ++ (ys ++ [⟨.testSets project, .ok testSets⟩]))
      (.execution request plan (.of ctx.tempPattern (testSets.map (·.name.text))))
  | report {request xs assignment} (named : Named project configuration request.testSet xs assignment) :
    Planned ctx project configuration (.report request) xs (.report request assignment)

/-- The reads of the directories with which a guard begins, and what it remembers if both succeed. -/
inductive Readings (c : Configuration) : List Exchange → Option (Path × Path) → Prop
  | untried : Readings c [] none
  | unread (e) : Readings c [⟨.dataDir c, .error e⟩] none
  | half (data e) : Readings c [⟨.dataDir c, .ok data⟩, ⟨.reportDir c, .error e⟩] none
  | both (data report) :
    Readings c [⟨.dataDir c, .ok data⟩, ⟨.reportDir c, .ok report⟩] (some (data, report))

/-- What comes before anything is guarded: a project is opened, things are looked up, and the
directories are read. -/
inductive Preparing (request : Request) : List Exchange → Option (Path × Path) → Prop
  | parts {xs ys zs directories} (c : Configuration) (opening : Opening request.project xs)
    (looks : ∀ x ∈ ys, Call.Looks x.call) (readings : Readings c zs directories) :
    Preparing request (xs ++ ys ++ zs) directories

/-- The calls before a guard began, and what they told. -/
inductive Prepared (ctx : Orchestration) (request : Request) : List Exchange → Task → Guard → Prop
  | all {xs ys zs project configuration task} (data report)
    (opened : Opened request.project xs project)
    (required : Required project request.configuration ys configuration)
    (planned : Planned ctx project configuration request zs task) :
    Prepared ctx request
      (xs ++ (ys ++ zs) ++ [⟨.dataDir configuration, .ok data⟩, ⟨.reportDir configuration, .ok report⟩])
      task { project, configuration, formerDataDir := data, formerReportDir := report }

theorem asks_planExecution (project : Project) (configuration : Configuration)
    (request : ExecutionRequest) :
    Asks env w (Attempt.planExecution project configuration request) Call.Looks fun xs plan =>
      ∃ ys zs requested, xs = ys ++ zs ∧ Resolved project request.testCases ys requested ∧
        Devised project configuration request.testCases requested request.testSet zs plan := by
  unfold Attempt.planExecution
  apply Asks.bind (Attempt.asks_resolveRequested project request.testCases)
  intro ys requested w₁ hresolved
  cases request.testSet with
  | none =>
    apply (Attempt.asks_planPerItem project configuration _ _).mono (fun _ hc => hc)
    intro zs plan hdevised
    exact ⟨ys, zs, requested, rfl, hresolved, hdevised⟩
  | some name =>
    apply (Attempt.asks_planShared project configuration name _ _).mono (fun _ hc => hc)
    intro zs plan hdevised
    exact ⟨ys, zs, requested, rfl, hresolved, hdevised⟩

theorem asks_planReport (project : Project) (configuration : Configuration)
    (name? : Option TestSetName) :
    Asks env w (Attempt.planReport project configuration name?) Call.Looks
      (Named project configuration name?) := by
  unfold Attempt.planReport
  cases name? with
  | none => exact .pure .nothing
  | some name =>
    apply Asks.bind (Attempt.asks_requireTestSet project name)
    intro xs testSet w₁ h
    obtain ⟨testSets, rfl, hfound⟩ := h
    apply Asks.bind (Attempt.asks_activeItemsOf configuration).atStage
    intro xs active w₂ h
    obtain ⟨items, ys, rfl, hpicked⟩ := h
    apply Asks.pure
    rw [List.append_nil]
    exact .found hfound hpicked

theorem asks_plan (ctx : Orchestration) (project : Project) (configuration : Configuration)
    (request : Request) :
    Asks env w (request.plan ctx project configuration) Call.Looks
      (Planned ctx project configuration request) := by
  cases request with
  | execution request =>
    apply Asks.bind (asks_planExecution project configuration request)
    intro xs plan w₁ h
    obtain ⟨ys, zs, requested, rfl, hresolved, hdevised⟩ := h
    apply Asks.bind (Attempt.asks_temporaryNames project ctx.tempPattern)
    intro xs names w₂ h
    obtain ⟨testSets, rfl, rfl⟩ := h
    apply Asks.pure
    rw [List.append_nil, List.append_assoc]
    exact .execution hresolved hdevised
  | report request =>
    apply Asks.bind (asks_planReport project configuration request.testSet)
    intro xs assignment w₁ hnamed
    apply Asks.pure
    rw [List.append_nil]
    exact .report hnamed

theorem asks_survey (ctx : Orchestration) (project : Project) (request : Request) :
    Asks env w (request.survey ctx project) Call.Looks fun xs found => ∃ ys zs, xs = ys ++ zs ∧
      Required project request.configuration ys found.1 ∧
        Planned ctx project found.1 request zs found.2 := by
  apply Asks.bind (Attempt.asks_requireConfiguration project request.configuration)
  intro ys configuration w₁ hrequired
  apply Asks.bind (asks_plan ctx project configuration request)
  intro zs task w₂ hplanned
  apply Asks.pure
  rw [List.append_nil]
  exact ⟨ys, zs, rfl, hrequired, hplanned⟩

theorem returns_beginning (project : Project) (c : Configuration) :
    Returns env w (atStage .resolve (Guard.start project c) :
        Attempt σ OrchestrationError Guard).run fun t r =>
      match r with
      | .error _ => Readings c t.exchanges none
      | .ok g => ∃ data report, Readings c t.exchanges (some (data, report)) ∧
        g = { project, configuration := c, formerDataDir := data, formerReportDir := report } := by
  rw [Attempt.run_atStage]
  apply Returns.bind (S := fun t r => match r with
    | .error _ => Readings c t.exchanges none
    | .ok g => ∃ data report, Readings c t.exchanges (some (data, report)) ∧
      g = { project, configuration := c, formerDataDir := data, formerReportDir := report })
  · unfold Guard.start
    apply Attempt.returns_bind (Returns.ask
      (S := fun t a => ∃ raised, t = .told (.dataDir c) a raised) fun raised => ⟨raised, rfl⟩)
    · intro t e h
      obtain ⟨raised, rfl⟩ := h
      have hx : Readings c [⟨.dataDir c, .error e⟩] none := .unread e
      simpa using hx
    intro t data w₁ _ h
    obtain ⟨raised, rfl⟩ := h
    apply Attempt.returns_bind (Returns.ask
      (S := fun t a => ∃ raised, t = .told (.reportDir c) a raised) fun raised => ⟨raised, rfl⟩)
    · intro t e h
      obtain ⟨raised', rfl⟩ := h
      have hx : Readings c [⟨.dataDir c, .ok data⟩, ⟨.reportDir c, .error e⟩] none := .half data e
      simpa using hx
    · intro t report w₂ _ h
      obtain ⟨raised', rfl⟩ := h
      apply Returns.pure
      have hx : Readings c [⟨.dataDir c, .ok data⟩, ⟨.reportDir c, .ok report⟩]
        (some (data, report)) := .both data report
      exact ⟨data, report, by simpa using hx, rfl⟩
  · rintro t r w₁ - h
    apply Returns.pure
    rw [Trace.append_nil]
    cases r with
    | error e => exact h
    | ok g => exact h

theorem returns_prepare (ctx : Orchestration) (request : Request) :
    Returns env w (request.prepare ctx).run fun t r =>
      match r with
      | .error _ => Preparing request t.exchanges none
      | .ok (task, g) => Preparing request t.exchanges (some (g.formerDataDir, g.formerReportDir)) ∧
        Prepared ctx request t.exchanges task g := by
  unfold prepare
  apply Attempt.returns_bind (Attempt.returns_ensureProjectOpen request.project)
  · intro t e h
    obtain ⟨hopening, -⟩ := h
    have hx := Preparing.parts ⟨⟨""⟩, request.configuration⟩ hopening (List.forall_mem_nil _)
      .untried
    simpa using hx
  intro t₁ project w₁ _ h
  obtain ⟨hopening, hopened⟩ := h
  apply Attempt.returns_bind (asks_survey ctx project request)
  · intro t₂ e h
    obtain ⟨hlooks, -⟩ := h
    have hx := Preparing.parts ⟨⟨""⟩, request.configuration⟩ hopening hlooks .untried
    simpa using hx
  rintro t₂ ⟨configuration, task⟩ w₂ - ⟨hlooks, hfound⟩
  obtain ⟨ys, zs, hparts, hrequired, hplanned⟩ := hfound _ rfl
  apply Attempt.returns_bind (returns_beginning project configuration)
  · rintro t₃ e hreadings
    have hx := Preparing.parts configuration hopening hlooks hreadings
    simpa using hx
  · intro t₃ g w₃ _ h
    obtain ⟨data, report, hreadings, rfl⟩ := h
    apply Returns.pure
    have hx := Preparing.parts configuration hopening hlooks hreadings
    refine ⟨by simpa using hx, ?_⟩
    simp only [Trace.append_nil, Trace.exchanges_append]
    generalize t₃.exchanges = us at hreadings
    cases hreadings
    have hall := Prepared.all data report (hopened project rfl) hrequired hplanned
    rw [← hparts, List.append_assoc] at hall
    exact hall

end Request

/-- The whole of an orchestration, from a state of the outside and with the flag up or down. It has
no result where the waiting was followed no further. -/
inductive Course (env : Environment σ) (ctx : Orchestration) (request : Request) (s : σ)
    (flag : Bool) : Trace → Option (Except OrchestrationError Outcome) → Prop
  | unprepared (planning e) (awake : planning.Awake)
    (preparing : request.Preparing planning.exchanges none) :
    Course env ctx request s flag planning (some (.error e))
  | unfinished (planning work task g) (awake : planning.Awake)
    (preparing : request.Preparing planning.exchanges
      (some (g.formerDataDir, g.formerReportDir)))
    (prepared : request.Prepared ctx planning.exchanges task g)
    (region : Task.Region env ctx task g (env.replay s planning.events)
      (flag || planning.raised) work none) :
    Course env ctx request s flag (planning ++ work) none
  | finished (planning work restoration line task g result g' failures) (awake : planning.Awake)
    (preparing : request.Preparing planning.exchanges
      (some (g.formerDataDir, g.formerReportDir)))
    (prepared : request.Prepared ctx planning.exchanges task g)
    (region : Task.Region env ctx task g (env.replay s planning.events)
      (flag || planning.raised) work (some (result, g')))
    (restored : g'.Restoration restoration failures) (quiet : restoration.Awake)
    (headed : Event.Headed restoration.events) :
    Course env ctx request s flag (planning ++ (work ++ (restoration ++ .noted line)))
      (some (concludeResult (result.map fun _ => request.outcome g') failures))

theorem conclude_eq (work : Guarded σ OrchestrationError Unit) (g : Guard)
    (outcome : Guard → Outcome) :
    work.conclude g outcome = Guarded.under g work >>= fun (result, g') =>
      (do
        let failures ← g'.restore
        announceIncomplete failures
        return failures) >>= fun failures =>
      pure (concludeResult (result.map fun _ => outcome g') failures) := by
  simp only [Guarded.conclude, bind_assoc, pure_bind]

/-- What is known of the parts of an orchestration makes up what is known of the whole: what comes
before the guard, the work under it, and the restore of what the work leaves. -/
theorem traces_parts {ctx : Orchestration} {request : Request}
    {S : Trace → Except OrchestrationError (Task × Guard) → Prop}
    {P : Trace → Task → Guard → Trace → Option (Except OrchestrationError Unit × Guard) → Prop}
    {Q : Guard → Trace → List RestoreFailure → Prop}
    {R : Trace → Option (Except OrchestrationError Outcome) → Prop}
    (hprepare : Returns env w (request.prepare ctx).run S)
    (hperform : ∀ planning task g w₁, Leads env w planning w₁ → S planning (.ok (task, g)) →
      Traces env w₁ (Guarded.under g (task.perform ctx)) (P planning task g))
    (hrestore : ∀ g w₂, Returns env w₂ (do
      let failures ← g.restore
      announceIncomplete failures
      return failures) (Q g))
    (unprepared : ∀ planning e, S planning (.error e) → R planning (some (.error e)))
    (unfinished : ∀ planning task g work, S planning (.ok (task, g)) → P planning task g work none →
      R (planning ++ work) none)
    (finished : ∀ planning task g work result g' restoration failures, S planning (.ok (task, g)) →
      P planning task g work (some (result, g')) → Q g' restoration failures →
      let concluded := concludeResult (result.map fun _ => request.outcome g') failures
      R (planning ++ (work ++ (restoration ++ .noted (request.closing concluded)))) (some concluded)) :
    Traces env w (request.orchestrate ctx).run R := by
  rw [Request.orchestrate_conducts, Request.conduct, Attempt.run_bind]
  apply Traces.bind_returns hprepare
  intro planning r w₁ hl₁ hr
  cases r with
  | error e =>
    apply Traces.of_returns
    apply Returns.pure
    rw [Trace.append_nil]
    exact unprepared planning e hr
  | ok found =>
    obtain ⟨task, g⟩ := found
    dsimp only
    -- from here on there is a guard, and it is restored however the work ends
    rw [Attempt.run_lift_bind, conclude_eq, bind_assoc]
    apply Traces.bind (hperform planning task g w₁ hl₁ hr)
    · intro work hwork
      exact unfinished planning task g work hr hwork
    · intro work h w₂ hl₂ hwork
      obtain ⟨result, g'⟩ := h
      rw [bind_assoc]
      apply Traces.bind_returns (hrestore g' w₂)
      intro restoration failures w₃ hl₃ hrestored
      rw [pure_bind]
      apply Traces.of_returns
      have hall := finished planning task g work result g' restoration failures hr hwork hrestored
      generalize concludeResult (result.map fun _ => request.outcome g') failures = concluded at *
      cases concluded with
      | ok outcome =>
        apply Attempt.returns_note_bind
        intro w₄
        apply Returns.pure
        rw [Trace.append_nil]
        exact hall
      | error e =>
        apply Attempt.returns_note_bind
        intro w₄
        apply Returns.pure
        rw [Trace.append_nil]
        exact hall

theorem traces_orchestrate (ctx : Orchestration) (request : Request) :
    Traces env w (request.orchestrate ctx).run
      (Course env ctx request w.outside w.interrupted) := by
  refine traces_parts (Request.returns_prepare ctx request).clean (P := fun planning task g =>
    Task.Region env ctx task g (env.replay w.outside planning.events)
      (w.interrupted || planning.raised)) ?_ (fun g w₂ => (returns_restoration g).clean) ?_ ?_ ?_
  · intro planning task g w₁ hl _
    have hregion : Traces env w₁ (Guarded.under g (task.perform ctx)) _ :=
      Task.traces_perform ctx task
    rwa [hl.outside, hl.interrupted] at hregion
  · intro planning e h
    obtain ⟨hq, -, hr⟩ := h
    exact .unprepared planning e hq hr
  · intro planning task g work h hregion
    obtain ⟨hq, -, hpreparing, hprepared⟩ := h
    exact .unfinished planning work task g hq hpreparing hprepared hregion
  · intro planning task g work result g' restoration failures h hregion hrestored
    obtain ⟨hq, -, hpreparing, hprepared⟩ := h
    obtain ⟨hquiet, hheaded, hrestored⟩ := hrestored
    exact .finished planning work restoration _ task g result g' failures hq hpreparing hprepared
      hregion hrestored hquiet hheaded

/-- What an orchestration adds to its world is a course that ends as the orchestration does. -/
theorem orchestrate_course (env : Environment σ) (ctx : Orchestration) (request : Request)
    (w : World σ) :
    ∃ t : Trace, (Session.run (request.orchestrate ctx).run env w).2.events = w.events ++ t.events ∧
      Course env ctx request w.outside w.interrupted t
        (Session.run (request.orchestrate ctx).run env w).1 := by
  have htraces : Traces env w (request.orchestrate ctx).run
    (Course env ctx request w.outside w.interrupted) := traces_orchestrate ctx request
  obtain ⟨t, hl, hcourse⟩ := htraces
  exact ⟨t, hl.events, hcourse⟩

end GuardedRun
