import GuardedRun.Proofs.Course

/-! The events of the log, by the part of an orchestration that notes them. A part has a vocabulary of its
own, whatever the engine answers and however the part ends; and no part starts a program. -/

namespace GuardedRun

variable {σ ε α β : Type}

open MonadSession

/-- All lines of the trace have one of some events, and no program is started in it. -/
structure Trace.Keeps (events : List String) (t : Trace) : Prop where
  lines : ∀ line ∈ t.lines, line.event ∈ events
  starts : ∀ executable arguments result, .launched executable arguments result ∉ t.events

/-- All that a session notes has one of some events, in every environment and however it ends, and it
starts no program. -/
def Session.Notes (events : List String) (s : Session σ α) : Prop :=
  ∀ (env : Environment σ) (w : World σ), Session.Traces env w s fun t _ => t.Keeps events

/-- What an attempt notes is what its session does. -/
abbrev Attempt.Notes (events : List String) (x : Attempt σ ε α) : Prop :=
  Session.Notes events x.run

/-- What is noted under a guard, whatever the guard remembers. -/
def Guarded.Notes (events : List String) (x : Guarded σ ε α) : Prop :=
  ∀ g, Session.Notes events (Guarded.under g x)

variable {events events' : List String}

namespace Trace.Keeps

theorem mono {t : Trace} (h : t.Keeps events) (hsub : events ⊆ events') : t.Keeps events' :=
  ⟨fun line hline => hsub (h.lines line hline), h.starts⟩

theorem nil : ({} : Trace).Keeps events := ⟨List.forall_mem_nil _, fun _ _ _ => List.not_mem_nil⟩

theorem append {t t' : Trace} (h : t.Keeps events) (h' : t'.Keeps events) : (t ++ t').Keeps events := by
  refine ⟨List.forall_mem_append.mpr ⟨h.lines, h'.lines⟩, fun executable arguments result hmem => ?_⟩
  rcases List.mem_append.mp hmem with hmem | hmem
  · exact h.starts executable arguments result hmem
  · exact h'.starts executable arguments result hmem

theorem told (call : Call) (answer : Except EngineError call.Reply) (raised : Bool) :
    (Trace.told call answer raised).Keeps events := by
  constructor <;> cases raised <;> simp [Trace.told]

theorem slept (n : Nat) (raised : Bool) : (Trace.slept n raised).Keeps events := by
  constructor <;> cases raised <;> simp [Trace.slept]

theorem noted {line : LogLine} (h : line.event ∈ events) : (Trace.noted line).Keeps events := by
  constructor <;> simp [Trace.noted, h]

end Trace.Keeps

namespace Session.Notes

theorem mono {s : Session σ α} (h : s.Notes events) (hsub : events ⊆ events') : s.Notes events' :=
  fun env w => (h env w).mono fun _ _ ht => ht.mono hsub

/-- A step that leaves the world alone notes nothing. -/
theorem of_still {s : Session σ α} (h : ∀ env w, (s.run env w).2 = w) : s.Notes events := by
  intro env w
  refine ⟨{}, ?_, .nil⟩
  rw [h]
  exact .refl env w

theorem pure (a : α) : Session.Notes events (pure a : Session σ α) := of_still fun _ _ => rfl

theorem ask (call : Call) : (Session.ask call : Session σ _).Notes events :=
  fun _ _ => .of_returns (.ask fun raised => .told call _ raised)

theorem pause (n : Nat) : (Session.pause n : Session σ Unit).Notes events := by
  intro env w
  obtain ⟨raised, hl⟩ := Leads.slept env w n
  exact ⟨.slept n raised, hl, .slept n raised⟩

theorem isInterrupted : (Session.isInterrupted : Session σ Bool).Notes events := of_still fun _ _ => rfl

theorem clock : (Session.clock : Session σ Nat).Notes events := of_still fun _ _ => rfl

theorem unfinished : (Session.unfinished : Session σ α).Notes events := of_still fun _ _ => rfl

theorem note {level : LogLevel} {event message : String} (h : event ∈ events) :
    (Session.note ⟨level, event, message⟩ : Session σ Unit).Notes events :=
  fun _ _ => .of_returns (.note (.noted h))

theorem bind {s : Session σ α} {f : α → Session σ β} (hs : s.Notes events) (hf : ∀ a, (f a).Notes events) :
    (s >>= f).Notes events := by
  intro env w
  apply (hs env w).bind
  · exact fun t ht => ht
  · intro t a w₁ _ ht
    exact (hf a env w₁).mono fun t' _ ht' => ht.append ht'

theorem sleep (n : Nat) : (Session.sleep n : Session σ Bool).Notes events := by
  unfold Session.sleep
  induction n using sleepIn.induct .millisecond with
  | case1 =>
    rw [sleepIn, if_pos rfl]
    exact isInterrupted.bind fun _ => pure _
  | case2 n hn ih =>
    rw [sleepIn, if_neg hn]
    refine isInterrupted.bind fun flag => ?_
    cases flag with
    | true => exact pure false
    | false => exact (pause _).bind fun _ => ih

/-- What is known of a run and what it notes hold together. -/
theorem traces {env : Environment σ} {w : World σ} {s : Session σ α} {R : Trace → Option α → Prop}
    (h : s.Notes events) (hs : Traces env w s R) :
    Traces env w s fun t o => R t o ∧ ∀ line ∈ t.lines, line.event ∈ events := by
  obtain ⟨t, hl, ht⟩ := hs
  obtain ⟨t', hl', ht'⟩ := h env w
  obtain rfl := hl.unique hl'
  exact ⟨t, hl, ht, ht'.lines⟩

theorem returns {env : Environment σ} {w : World σ} {s : Session σ α} {S : Trace → α → Prop}
    (h : s.Notes events) (hs : Returns env w s S) :
    Returns env w s fun t a => S t a ∧ ∀ line ∈ t.lines, line.event ∈ events := by
  obtain ⟨t, a, w', hrun, hl, hq, ha⟩ := hs
  obtain ⟨t', hl', ht'⟩ := h env w
  rw [hrun] at hl'
  obtain rfl := hl.unique hl'
  exact ⟨t, a, w', hrun, hl, hq, ha, ht'.lines⟩

end Session.Notes

namespace Attempt.Notes

theorem pure (a : α) : Notes events (pure a : Attempt σ ε α) := Session.Notes.pure _

theorem throw (e : ε) : Notes events (throw e : Attempt σ ε α) := Session.Notes.pure _

theorem lift {s : Session σ α} (h : s.Notes events) : Notes events (liftSession s : Attempt σ ε α) :=
  h.bind fun _ => Session.Notes.pure _

theorem ask (call : Call) : Notes events (MonadSession.ask call : Attempt σ EngineError call.Reply) :=
  Session.Notes.ask call

theorem attempt (call : Call) : Notes events (MonadSession.attempt call : Attempt σ ε _) :=
  lift (.ask call)

theorem note {level : LogLevel} {event message : String} (h : event ∈ events) :
    Notes events (MonadSession.note ⟨level, event, message⟩ : Attempt σ ε Unit) :=
  lift (.note h)

theorem bind {x : Attempt σ ε α} {f : α → Attempt σ ε β} (hx : Notes events x)
    (hf : ∀ a, Notes events (f a)) :
    Notes events (x >>= f) := by
  unfold Notes
  rw [Attempt.run_bind]
  apply Session.Notes.bind hx
  intro r
  cases r with
  | ok a => exact hf a
  | error e => exact Session.Notes.pure _

theorem adapt {ε' : Type} {f : ε → ε'} {x : Attempt σ ε α} (hx : Notes events x) :
    Notes events (ExceptT.adapt f x) :=
  Session.Notes.bind hx fun _ => .pure _

theorem atStage {stage : Stage} {x : Attempt σ EngineError α} (hx : Notes events x) :
    Notes events (atStage stage x) :=
  Session.Notes.bind hx fun _ => .pure _

end Attempt.Notes

namespace Guarded.Notes

theorem mono {x : Guarded σ ε α} (h : Notes events x) (hsub : events ⊆ events') : Notes events' x :=
  fun g => (h g).mono hsub

theorem pure (a : α) : Notes events (pure a : Guarded σ ε α) := fun _ => Session.Notes.pure _

theorem throw (e : ε) : Notes events (throw e : Guarded σ ε α) := fun _ => Session.Notes.pure _

theorem lift {s : Session σ α} (h : s.Notes events) : Notes events (liftSession s : Guarded σ ε α) := by
  intro g
  rw [Guarded.under_lift]
  exact h.bind fun _ => .pure _

theorem ask (call : Call) : Notes events (MonadSession.ask call : Guarded σ EngineError call.Reply) :=
  fun g => Session.Notes.bind (.ask call) fun a => .pure (a, g)

theorem note {level : LogLevel} {event message : String} (h : event ∈ events) :
    Notes events (MonadSession.note ⟨level, event, message⟩ : Guarded σ ε Unit) :=
  lift (.note h)

theorem bind {x : Guarded σ ε α} {f : α → Guarded σ ε β} (hx : Notes events x)
    (hf : ∀ a, Notes events (f a)) :
    Notes events (x >>= f) := by
  intro g
  rw [Guarded.under_bind]
  refine Session.Notes.bind (hx g) fun r => ?_
  obtain ⟨r, g'⟩ := r
  cases r with
  | ok a => exact hf a g'
  | error e => exact Session.Notes.pure _

theorem get_bind {f : Guard → Guarded σ ε β} (hf : ∀ g, Notes events (f g)) : Notes events (get >>= f) := by
  intro g
  rw [Guarded.under_get_bind]
  exact hf g g

theorem modify_bind {h : Guard → Guard} {f : PUnit → Guarded σ ε β} (hf : Notes events (f ())) :
    Notes events (modify h >>= f) := by
  intro g
  rw [Guarded.under_modify_bind]
  exact hf (h g)

theorem atStage {stage : Stage} {x : Guarded σ EngineError α} (hx : Notes events x) :
    Notes events (atStage stage x) :=
  fun g => Session.Notes.bind (hx g) fun _ => .pure _

theorem guarded {x : Attempt σ ε α} (hx : Attempt.Notes events x) : Notes events x.guarded := by
  intro g
  rw [Task.under_guarded]
  exact Session.Notes.bind hx fun _ => .pure _

end Guarded.Notes

/-- The events of planning. -/
def Vocabulary.planning : List String :=
  ["project.reused", "project.opened", "project.open_failed", "project.open_failed.log",
    "config.resolved", "config.not_found", "test_set.not_found", "scenarios.resolved",
    "scenarios.partial_match", "plan.filter", "plan.deactivate", "plan.shared"]

/-- The events of the changes of a configuration. -/
def Vocabulary.changes : List String :=
  ["mutate.data_dir", "mutate.report_dir", "mutate.temp_test_set", "mutate.assign",
    "mutate.deactivate", "plan.unfiltered", "plan.no_active_items"]

/-- The events of work in the engine. -/
def Vocabulary.work : List String :=
  ["execution.interrupted", "execution.triggered", "report.interrupted", "report.triggered",
    "poll.completed", "poll.cancelled", "poll.cancel_failed"]

/-- The events of a restore. -/
def Vocabulary.restoring : List String :=
  ["restore.assign", "restore.data_dir", "restore.report_dir", "restore.delete_temp_test_set",
    "restore.reactivate", "restore.failed", "restore.dangling_test_set", "restore.incomplete"]

/-- The events that an orchestration ends with. -/
def Vocabulary.ends : List String :=
  ["execution.done", "execution.failed", "report.done", "report.failed"]

/-- The events of an orchestration. -/
def Vocabulary.orchestration : List String := planning ++ changes ++ work ++ restoring ++ ends

/-- The events of closing a project. -/
def Vocabulary.departure : List String := ["project.close.not_open", "project.closed"]

namespace Attempt

open Vocabulary

theorem notes_failOpening (path : Path) (e : EngineError) :
    Notes planning (failOpening path e : Attempt σ OrchestrationError α) := by
  have hlines (lines : List String) : Notes planning
      (lines.forM fun line => error "project.open_failed.log" line :
        Attempt σ OrchestrationError PUnit) := by
    induction lines with
    | nil => exact .pure _
    | cons line rest ih => exact (Notes.note (by decide)).bind fun _ => ih
  exact (Notes.note (by decide)).bind fun _ => (hlines e.remoteLog).bind fun _ => .throw _

theorem notes_ensureProjectOpen (path : Path) :
    Notes planning (ensureProjectOpen path : Attempt σ OrchestrationError Project) := by
  refine (Notes.attempt _).bind fun a => ?_
  cases a with
  | error e => exact notes_failOpening path e
  | ok projects =>
    dsimp only
    cases findProject path projects with
    | some project => exact (Notes.note (by decide)).bind fun _ => .pure _
    | none =>
      refine (Notes.attempt _).bind fun b => ?_
      cases b with
      | error e => exact notes_failOpening path e
      | ok project => exact (Notes.note (by decide)).bind fun _ => .pure _

theorem notes_requireConfiguration (project : Project) (name : ConfigName) :
    Notes planning (requireConfiguration project name :
      Attempt σ OrchestrationError Configuration) := by
  refine (((Notes.ask _).bind fun _ => .pure _).atStage).bind fun found => ?_
  cases found with
  | none => exact (Notes.note (by decide)).bind fun _ => .throw _
  | some configuration => exact (Notes.note (by decide)).bind fun _ => .pure _

theorem notes_requireTestSet (project : Project) (name : TestSetName) :
    Notes planning (requireTestSet project name : Attempt σ OrchestrationError TestSet) := by
  refine (((Notes.ask _).bind fun _ => .pure _).atStage).bind fun found => ?_
  cases found with
  | none => exact (Notes.note (by decide)).bind fun _ => .throw _
  | some testSet => exact .pure _

theorem notes_resolveRequested (project : Project) (testCases : NameSet .scenario) :
    Notes planning (resolveRequested project testCases :
      Attempt σ OrchestrationError (List Scenario)) := by
  unfold resolveRequested
  split
  · exact .pure _
  · refine (Notes.ask _).atStage.bind fun tree => ?_
    dsimp only
    split
    · exact (Notes.note (by decide)).bind fun _ => .throw _
    · exact (Notes.note (by decide)).bind fun _ => .pure _

theorem notes_activeItems (items : List Item) :
    Notes planning (activeItems items : Attempt σ EngineError (List Item)) := by
  induction items with
  | nil => exact .pure _
  | cons item rest ih => exact (Notes.ask _).bind fun _ => ih.bind fun _ => .pure _

theorem notes_activeItemsOf (configuration : Configuration) :
    Notes planning (activeItemsOf configuration : Attempt σ EngineError (List Item)) :=
  (Notes.ask _).bind fun items => notes_activeItems items

theorem notes_planItem (item : Item) (requested : List Scenario) :
    Notes planning (planItem item requested : Attempt σ EngineError ItemAction) := by
  have hcurrent : Notes planning (currentScenarios item :
      Attempt σ EngineError (List Scenario)) := by
    refine (Notes.ask _).bind fun held => ?_
    cases held with
    | none => exact .pure _
    | some testSet => exact .ask _
  refine hcurrent.bind fun scenarios => ?_
  dsimp only
  split
  · exact (Notes.note (by decide)).bind fun _ => .pure _
  · exact (Notes.note (by decide)).bind fun _ => .pure _

theorem notes_planItems (requested : List Scenario) (items : List Item) :
    Notes planning (planItems requested items : Attempt σ EngineError (List ItemAction)) := by
  induction items with
  | nil => exact .pure _
  | cons item rest ih =>
    refine (Notes.ask _).bind fun active => ?_
    cases active with
    | false => exact ih
    | true => exact (notes_planItem item requested).bind fun _ => ih.bind fun _ => .pure _

theorem notes_planPerItem (configuration : Configuration) (testCases : NameSet .scenario)
    (requested : List Scenario) :
    Notes planning (planPerItem configuration testCases requested :
      Attempt σ OrchestrationError Plan) := by
  unfold planPerItem
  split
  · exact .pure _
  · refine Notes.atStage ((Notes.ask _).bind fun items => ?_)
    exact (notes_planItems requested items).bind fun _ => .pure _

theorem notes_planShared (project : Project) (configuration : Configuration) (name : TestSetName)
    (testCases : NameSet .scenario) (requested : List Scenario) :
    Notes planning (planShared project configuration name testCases requested :
      Attempt σ OrchestrationError Plan) := by
  have hcovered (inSet : List Scenario) : Notes planning
      (coveredScenarios name inSet testCases requested :
        Attempt σ OrchestrationError (List Scenario)) := by
    unfold coveredScenarios
    split
    · exact .pure _
    · dsimp only
      split
      · exact (Notes.note (by decide)).bind fun _ => .throw _
      · exact .pure _
  refine (notes_requireTestSet project name).bind fun testSet => ?_
  refine (Notes.ask _).atStage.bind fun inSet => (hcovered inSet).bind fun scenarios => ?_
  split
  · exact .throw _
  · refine (notes_activeItemsOf configuration).atStage.bind fun items => ?_
    exact (Notes.note (by decide)).bind fun _ => .pure _

theorem notes_planExecution (project : Project) (configuration : Configuration)
    (request : ExecutionRequest) :
    Notes planning (planExecution project configuration request :
      Attempt σ OrchestrationError Plan) := by
  refine (notes_resolveRequested project request.testCases).bind fun requested => ?_
  cases request.testSet with
  | none => exact notes_planPerItem configuration _ requested
  | some name => exact notes_planShared project configuration name _ requested

theorem notes_planReport (project : Project) (configuration : Configuration)
    (name? : Option TestSetName) :
    Notes planning (planReport project configuration name? :
      Attempt σ OrchestrationError (Option (TestSet × List Item))) := by
  cases name? with
  | none => exact .pure _
  | some name =>
    refine (notes_requireTestSet project name).bind fun testSet => ?_
    exact (notes_activeItemsOf configuration).atStage.bind fun _ => .pure _

/-- What comes before the configuration is changed notes events of planning only. -/
theorem notes_prepare (ctx : Orchestration) (request : Request) :
    Notes planning (request.prepare ctx : Attempt σ OrchestrationError (Task × Guard)) := by
  have hplan (project : Project) (c : Configuration) : Notes planning
      (request.plan ctx project c : Attempt σ OrchestrationError Task) := by
    cases request with
    | execution request =>
      refine (notes_planExecution project c request).bind fun plan => ?_
      exact (((Notes.ask _).atStage).bind fun _ => .pure _).bind fun _ => .pure _
    | report request => exact (notes_planReport project c request.testSet).bind fun _ => .pure _
  have hguard (project : Project) (c : Configuration) : Notes planning
      (Guard.start project c : Attempt σ EngineError Guard) :=
    (Notes.ask _).bind fun _ => (Notes.ask _).bind fun _ => .pure _
  refine (notes_ensureProjectOpen request.project).bind fun project => ?_
  refine Notes.bind ?_ fun found => (hguard project found.1).atStage.bind fun _ => .pure _
  refine (notes_requireConfiguration project request.configuration).bind fun c => ?_
  exact (hplan project c).bind fun _ => .pure _

theorem notes_giveUp (execution : Execution) (reason : String) (e : OrchestrationError) :
    Notes work (giveUp execution reason e : Attempt σ OrchestrationError Unit) := by
  have hcancel : (cancelBestEffort execution reason : Session σ Unit).Notes work := by
    refine (Session.Notes.ask _).bind fun a => ?_
    cases a with
    | ok u => exact Session.Notes.note (by decide)
    | error e => exact Session.Notes.note (by decide)
  exact (Notes.lift hcancel).bind fun _ => .throw _

theorem notes_poll (execution : Execution) (polling : Polling) (started rounds : Nat) :
    Notes work (poll execution polling started rounds :
      Attempt σ OrchestrationError Unit) := by
  induction rounds with
  | zero => exact .lift .unfinished
  | succ rounds ih =>
    refine (Notes.lift .isInterrupted).bind fun flag => ?_
    split
    · exact notes_giveUp execution _ _
    · refine (Notes.ask _).atStage.bind fun progress => (Notes.lift .clock).bind fun now => ?_
      dsimp only
      split
      · exact .note (by decide)
      · split
        · exact notes_giveUp execution _ _
        · refine (Notes.lift (.sleep _)).bind fun passed => ?_
          split
          · exact ih
          · exact notes_giveUp execution _ _

theorem notes_waitForCompletion (execution : Execution) (polling : Polling) (rounds : Nat) :
    Notes work (waitForCompletion execution polling rounds :
      Attempt σ OrchestrationError Unit) :=
  (Notes.lift .clock).bind fun started => notes_poll execution polling started rounds

theorem notes_closeProject (path : Path) :
    Notes departure (closeProject path : Attempt σ EngineError Bool) := by
  refine (Notes.ask _).bind fun projects => ?_
  cases findProject path projects with
  | none => exact (Notes.note (by decide)).bind fun _ => .pure _
  | some project =>
    exact (Notes.ask _).bind fun _ => (Notes.note (by decide)).bind fun _ => .pure _

end Attempt

namespace Guard

open Vocabulary Guarded

theorem notes_redirectDirectories (dataDir reportDir : Option Path) :
    Notes changes (redirectDirectories dataDir reportDir : Guarded σ EngineError Unit) := by
  have hdata (path : Path) : Notes changes (redirectData path : Guarded σ EngineError Unit) :=
    .get_bind fun g => (Notes.ask _).bind fun _ => .note (by decide)
  have hreport (path : Path) :
      Notes changes (redirectReport path : Guarded σ EngineError Unit) :=
    .get_bind fun g => (Notes.ask _).bind fun _ => .note (by decide)
  intro g
  rcases dataDir with _ | data <;> rcases reportDir with _ | report
  · rw [under_redirectDirectories_none]
    exact .pure _
  · rw [under_redirectDirectories_report]
    exact hreport report _
  · rw [under_redirectDirectories_data]
    exact (hdata data).bind (fun _ => .pure _) _
  · rw [under_redirectDirectories_both]
    exact (hdata data).bind (fun _ => hreport report) _

theorem notes_assign (item : Item) (testSet : TestSet) :
    Notes changes (assign item testSet : Guarded σ EngineError Unit) := by
  have hset : Notes changes (do
      ask (.setItemTestSet item (some testSet))
      info "mutate.assign" s!"{item.describe}: assigned test set `{testSet.name}`" :
        Guarded σ EngineError Unit) :=
    (Notes.ask _).bind fun _ => .note (by decide)
  refine .get_bind fun g => ?_
  split
  · exact hset
  · exact (Notes.ask _).bind fun former => .modify_bind hset

theorem notes_createTemporary (name : TestSetName) (scenarios : List Scenario) :
    Notes changes (createTemporary name scenarios : Guarded σ EngineError TestSet) :=
  .get_bind fun _ => (Notes.ask _).bind fun _ => .modify_bind <|
    (Notes.ask _).bind fun _ => (Notes.note (by decide)).bind fun _ => .pure _

theorem notes_deactivate (item : Item) :
    Notes changes (deactivate item : Guarded σ EngineError Unit) :=
  .modify_bind ((Notes.ask _).bind fun _ => .note (by decide))

theorem notes_blame (failure : RestoreFailure) :
    (blame failure : Session σ (List RestoreFailure)).Notes restoring := by
  have hline : failure.line.event ∈ restoring := by
    cases failure <;> simp [RestoreFailure.line, restoring]
  exact (Session.Notes.note hline).bind fun _ => .pure _

theorem notes_restoreTestSet (item : Item) (former : Option TestSet) :
    (restoreTestSet item former : Session σ _).Notes restoring := by
  have hverify : (verifyCleared item : Session σ _).Notes restoring := by
    refine (Session.Notes.ask _).bind fun a => ?_
    rcases a with e | _ | still
    · exact (notes_blame _).bind fun _ => .pure _
    · exact (Session.Notes.note (by decide)).bind fun _ => .pure _
    · exact (notes_blame _).bind fun _ => .pure _
  refine (Session.Notes.ask _).bind fun a => ?_
  cases a with
  | error e => exact (notes_blame _).bind fun _ => .pure _
  | ok u =>
    cases former with
    | none => exact hverify
    | some testSet => exact (Session.Notes.note (by decide)).bind fun _ => .pure _

theorem notes_restoreTestSets (formers : List (Item × Option TestSet)) :
    (restoreTestSets formers : Session σ _).Notes restoring := by
  induction formers with
  | nil => exact .pure _
  | cons first rest ih =>
    exact (notes_restoreTestSet first.1 first.2).bind fun _ => ih.bind fun _ => .pure _

theorem notes_restoreDirectories (guard : Guard) :
    (restoreDirectories guard : Session σ (List RestoreFailure)).Notes restoring := by
  have hdata : (restoreDataDir guard : Session σ (List RestoreFailure)).Notes restoring := by
    refine (Session.Notes.ask _).bind fun a => ?_
    cases a with
    | ok u => exact (Session.Notes.note (by decide)).bind fun _ => .pure _
    | error e => exact notes_blame _
  have hreport : (restoreReportDir guard : Session σ (List RestoreFailure)).Notes restoring := by
    refine (Session.Notes.ask _).bind fun a => ?_
    cases a with
    | ok u => exact (Session.Notes.note (by decide)).bind fun _ => .pure _
    | error e => exact notes_blame _
  unfold restoreDirectories
  split
  · exact hdata.bind fun _ => hreport.bind fun _ => .pure _
  · exact .pure _

theorem notes_deleteTemporary (project : Project) (assigned : List (Item × TestSet))
    (temporary : List TestSet) :
    (deleteTemporary project assigned temporary : Session σ (List RestoreFailure)).Notes restoring := by
  have hdangling (testSet : TestSet) (held : List (Item × TestSet)) :
      (blameDangling testSet held : Session σ (List RestoreFailure)).Notes restoring := by
    induction held with
    | nil => exact .pure _
    | cons first rest ih =>
      unfold blameDangling
      split
      · exact (notes_blame _).bind fun _ => ih.bind fun _ => .pure _
      · exact (Session.Notes.pure _).bind fun _ => ih.bind fun _ => .pure _
  induction temporary with
  | nil => exact .pure _
  | cons testSet rest ih =>
    refine (Session.Notes.ask _).bind fun a => ?_
    cases a with
    | ok u =>
      exact ((Session.Notes.note (by decide)).bind fun _ => hdangling testSet assigned).bind
        fun _ => ih.bind fun _ => .pure _
    | error e => exact (notes_blame _).bind fun _ => ih.bind fun _ => .pure _

theorem notes_reactivate (items : List Item) :
    (reactivate items : Session σ (List RestoreFailure)).Notes restoring := by
  induction items with
  | nil => exact .pure _
  | cons item rest ih =>
    refine (Session.Notes.ask _).bind fun a => ?_
    cases a with
    | ok u =>
      exact ((Session.Notes.note (by decide)).bind fun _ => .pure _).bind fun _ =>
        ih.bind fun _ => .pure _
    | error e => exact (notes_blame _).bind fun _ => ih.bind fun _ => .pure _

/-- A restore notes events of its own, and so does what is said of it. -/
theorem notes_restore (guard : Guard) :
    (guard.restore : Session σ (List RestoreFailure)).Notes restoring :=
  (notes_restoreTestSets _).bind fun _ => (notes_restoreDirectories guard).bind fun _ =>
    (notes_deleteTemporary _ _ _).bind fun _ => (notes_reactivate _).bind fun _ => .pure _

theorem notes_announceIncomplete (failures : List RestoreFailure) :
    (announceIncomplete failures : Session σ Unit).Notes restoring := by
  unfold announceIncomplete
  split
  · exact .pure _
  · exact .note (by decide)

/-- A restore and what is said of it note events of restoring only. -/
theorem notes_restoration (guard : Guard) : (do
    let failures ← guard.restore
    announceIncomplete failures
    return failures : Session σ (List RestoreFailure)).Notes restoring :=
  (notes_restore guard).bind fun failures => (notes_announceIncomplete failures).bind fun _ => .pure _

end Guard

namespace Guarded

open Vocabulary

theorem notes_drawName (names : TemporaryNames) :
    Notes changes (drawName names :
      Guarded σ OrchestrationError (TestSetName × TemporaryNames)) := by
  unfold drawName
  split
  · exact .pure _
  · exact .throw _

theorem notes_applyActions (names : TemporaryNames) (actions : List ItemAction) :
    Notes changes (applyActions names actions : Guarded σ OrchestrationError Unit) := by
  induction actions generalizing names with
  | nil => exact .pure _
  | cons action rest ih =>
    cases action with
    | deactivate item => exact (Guard.notes_deactivate item).atStage.bind fun _ => ih names
    | filter item scenarios =>
      refine (notes_drawName names).bind fun drawn => ?_
      refine (Guard.notes_createTemporary drawn.1 scenarios).atStage.bind fun testSet => ?_
      exact (Guard.notes_assign item testSet).atStage.bind fun _ => ih drawn.2

theorem notes_assignAll (testSet : TestSet) (items : List Item) :
    Notes changes (assignAll testSet items : Guarded σ OrchestrationError Unit) := by
  induction items with
  | nil => exact .pure _
  | cons item rest ih => exact (Guard.notes_assign item testSet).atStage.bind fun _ => ih

theorem notes_applyPlan (names : TemporaryNames) (plan : Plan) :
    Notes changes (applyPlan names plan : Guarded σ OrchestrationError Unit) := by
  cases plan with
  | unfiltered => exact .note (by decide)
  | perItem actions => exact notes_applyActions names actions
  | shared scenarios items =>
    refine (notes_drawName names).bind fun drawn => ?_
    refine (Guard.notes_createTemporary drawn.1 scenarios).atStage.bind fun testSet => ?_
    split
    · exact (Notes.note (by decide)).bind fun _ => notes_assignAll testSet items
    · exact notes_assignAll testSet items

theorem notes_checkInterrupt {event message : String} (h : event ∈ work) :
    Notes work (checkInterrupt event message : Guarded σ OrchestrationError Unit) := by
  refine (Notes.lift .isInterrupted).bind fun flag => ?_
  split
  · exact (Notes.note h).bind fun _ => .throw _
  · exact .pure _

end Guarded

namespace Task

open Vocabulary Guarded

theorem notes_alter (task : Task) :
    Notes changes (task.alter : Guarded σ OrchestrationError Unit) := by
  rcases task with ⟨request, plan, names⟩ | ⟨request, _ | ⟨testSet, items⟩⟩
  · exact notes_applyPlan names plan
  · exact .pure _
  · exact notes_assignAll testSet items

/-- What follows the changes notes events of work only. -/
theorem notes_labour (ctx : Orchestration) (task : Task) {event message : String}
    {line : Configuration → LogLine} (hevent : event ∈ ["execution.interrupted", "report.interrupted"])
    (hline : ∀ c, (line c).event ∈ ["execution.triggered", "report.triggered"]) :
    Notes work (do
      checkInterrupt event message
      let guard ← get
      let execution ← atStage .trigger (task.start guard.configuration)
      note (line guard.configuration)
      (Attempt.waitForCompletion execution ctx.polling ctx.rounds).guarded :
        Guarded σ OrchestrationError Unit) := by
  have hstops : ["execution.interrupted", "report.interrupted"] ⊆ work := by decide
  have hstarts : ["execution.triggered", "report.triggered"] ⊆ work := by decide
  have hstart (c : Configuration) : Notes work (task.start c : Guarded σ EngineError Execution) := by
    cases task <;> exact .ask _
  have hwait (execution : Execution) : Notes work
      (Attempt.waitForCompletion execution ctx.polling ctx.rounds :
        Attempt σ OrchestrationError Unit).guarded :=
    .guarded (Attempt.notes_waitForCompletion execution _ _)
  refine (notes_checkInterrupt (hstops hevent)).bind fun _ => .get_bind fun g => ?_
  refine (hstart g.configuration).atStage.bind fun execution => ?_
  exact Notes.bind (.note (hstarts (hline g.configuration))) fun _ => hwait execution

/-- The work under a guard notes events of changes and of work only. -/
theorem notes_perform (ctx : Orchestration) (task : Task) :
    Notes (changes ++ work) (task.perform ctx : Guarded σ OrchestrationError Unit) := by
  have hchanges : changes ⊆ changes ++ work := List.subset_append_left _ _
  have hwork : work ⊆ changes ++ work := List.subset_append_right _ _
  obtain ⟨event, message, line, hconduct, hevent, hline⟩ := perform_eq (σ := σ) ctx task
  rw [hconduct, conduct]
  refine Notes.bind ((Guard.notes_redirectDirectories _ _).mono hchanges).atStage fun _ => ?_
  refine ((notes_alter task).mono hchanges).bind fun _ => ?_
  exact (notes_labour ctx task hevent hline).mono hwork

end Task

/-- The end of an orchestration that came as far as a guard has events of its own. -/
theorem Request.event_closing (request : Request) (r : Except OrchestrationError Outcome) :
    (request.closing r).event ∈ Vocabulary.ends := by
  cases request <;> cases r <;> simp [closing, Vocabulary.ends]

/-- An orchestration notes events of its parts, and it starts no program. -/
theorem Request.notes_orchestrate (ctx : Orchestration) (request : Request) :
    Attempt.Notes Vocabulary.orchestration
      (request.orchestrate ctx : Attempt σ OrchestrationError Outcome) := by
  have hplanning : Vocabulary.planning ⊆ Vocabulary.orchestration := by decide
  have hperforming : Vocabulary.changes ++ Vocabulary.work ⊆ Vocabulary.orchestration := by decide
  have hrestoring : Vocabulary.restoring ⊆ Vocabulary.orchestration := by decide
  have hends : Vocabulary.ends ⊆ Vocabulary.orchestration := by decide
  have hclosing (r : Except OrchestrationError Outcome) :
      (request.closing r).event ∈ Vocabulary.orchestration := hends (request.event_closing r)
  rw [orchestrate_conducts, conduct]
  refine Attempt.Notes.bind ((Attempt.notes_prepare ctx request).mono hplanning) fun found => ?_
  obtain ⟨task, guard⟩ := found
  refine Attempt.Notes.bind (.lift ?_) fun concluded => ?_
  · rw [conclude_eq]
    refine ((Task.notes_perform ctx task guard).mono hperforming).bind fun performed => ?_
    exact ((Guard.notes_restoration performed.2).mono hrestoring).bind fun _ => .pure _
  · cases concluded with
    | ok outcome => exact (Attempt.Notes.note (hclosing (.ok outcome))).bind fun _ => .pure _
    | error e => exact (Attempt.Notes.note (hclosing (.error e))).bind fun _ => .throw _

end GuardedRun
