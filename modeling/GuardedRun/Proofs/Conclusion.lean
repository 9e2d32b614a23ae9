import GuardedRun.Proofs.Departure
import GuardedRun.Proofs.Memory

/-! How an orchestration ends. It succeeds just when nothing at all went wrong, from the first read to
the last call of the restore, and then says what was changed; otherwise what the guarded work ended with
and what the restore could not do decide together. -/

namespace GuardedRun

variable {σ : Type} {env : Environment σ} {w : World σ}

open Session Guard

/-- A call of a restore with which nothing is wrong: it succeeded, and no item was found to hold a test
set after it was to hold none. -/
def Exchange.Clean (x : Exchange) : Prop :=
  x.succeeded ∧ ∀ item testSet, x ≠ ⟨.itemTestSet item, .ok (some testSet)⟩

namespace Guard

/-- Every call but the read of an item's test set is clean if it succeeded. -/
theorem clean_iff {x : Exchange} (hx : ∀ item, x.call ≠ .itemTestSet item) :
    x.Clean ↔ x.succeeded := by
  constructor
  · exact And.left
  · intro h
    refine ⟨h, fun item testSet he => ?_⟩
    rw [he] at hx
    exact hx item rfl

theorem blamed_eq_nil {α : Type} {f : EngineError → RestoreFailure} {a : Except EngineError α} :
    RestoreFailure.blamed f a = [] ↔ a.isOk = true := by
  cases a <;> simp [RestoreFailure.blamed]

theorem Returned.clean {item : Item} {former : Option TestSet} {xs : List Exchange}
    {failures : List RestoreFailure} {still : Option TestSet}
    (h : Returned item former xs failures still) :
    (failures = [] ↔ ∀ x ∈ xs, x.Clean) ∧ (failures = [] → still = none) := by
  cases h <;> simp [Exchange.Clean]

theorem ReturnedAll.clean {former : List (Item × Option TestSet)} {xs : List Exchange}
    {failures : List RestoreFailure} {held : List (Item × TestSet)}
    (h : ReturnedAll former xs failures held) :
    (failures = [] ↔ ∀ x ∈ xs, x.Clean) ∧ (failures = [] → held = []) := by
  induction h with
  | nil => simp
  | cons first next ih =>
    obtain ⟨hfirst, hstill⟩ := first.clean
    obtain ⟨hnext, hheld⟩ := ih
    constructor
    · rw [List.append_eq_nil_iff, List.forall_mem_append, hfirst, hnext]
    · intro h
      obtain ⟨h₁, h₂⟩ := List.append_eq_nil_iff.mp h
      rw [hstill h₁, hheld h₂]
      rfl

theorem Reset.clean {g : Guard} {xs : List Exchange} {failures : List RestoreFailure}
    (h : g.Reset xs failures) : failures = [] ↔ ∀ x ∈ xs, x.Clean := by
  cases h with
  | untouched unchanged => simp
  | tried changed a b =>
    rw [List.append_eq_nil_iff, blamed_eq_nil, blamed_eq_nil]
    simp [Exchange.Clean]

theorem Tried.clean {ι : Type} {call : ι → Call}
    {report : (i : ι) → Except EngineError (call i).Reply → List RestoreFailure} {is : List ι}
    {xs : List Exchange} {failures : List RestoreFailure} (h : Tried call report is xs failures)
    (hreport : ∀ i a, report i a = [] ↔ a.isOk = true)
    (hcall : ∀ i item, call i ≠ .itemTestSet item) : failures = [] ↔ ∀ x ∈ xs, x.Clean := by
  induction h with
  | nil => simp
  | cons i a next ih =>
    have hclean : (⟨call i, a⟩ : Exchange).Clean ↔ a.isOk = true := clean_iff (hcall i)
    rw [List.append_eq_nil_iff, List.forall_mem_cons, ih, hreport, hclean]

/-- A restore has nothing to report just when nothing is wrong with any of its calls. -/
theorem Restores.clean {g : Guard} {xs : List Exchange} {failures : List RestoreFailure}
    (h : g.Restores xs failures) : failures = [] ↔ ∀ x ∈ xs, x.Clean := by
  obtain @⟨xs₁, xs₂, xs₃, xs₄, failures₁, failures₂, failures₃, failures₄, held, testSets,
    directories, deletions, activations⟩ := h
  obtain ⟨hreturned, hheld⟩ := testSets.clean
  have hactivations := activations.clean (fun _ _ => blamed_eq_nil) fun _ _ h => by cases h
  simp only [List.append_eq_nil_iff, List.forall_mem_append]
  rw [hreturned, directories.clean, hactivations]
  -- what is reported of a deletion depends on what the items still held before
  by_cases hfirst : ∀ x ∈ xs₁, x.Clean
  · obtain rfl := hheld (hreturned.mpr hfirst)
    have hreport (testSet : TestSet) (a : Except EngineError Unit) :
        deletionReport [] testSet a = [] ↔ a.isOk = true := by
      cases a <;> simp [deletionReport, dangling]
    rw [deletions.clean hreport fun _ _ h => by cases h]
  · simp [hfirst]

end Guard

/-- What an execution that was still going answered to a query. -/
def Exchange.Waits (execution : Execution) (x : Exchange) : Prop :=
  ∃ p, x = ⟨.progress execution, .ok p⟩ ∧ p.inProgress = true

/-- A waiting that ends well asks until the execution is over, and never sees the flag up. -/
theorem Watch.of_ok {execution : Execution} {polling : Polling} {started rounds : Nat} {s : σ}
    {flag : Bool} {t : Trace} (h : Watch env execution polling started rounds s flag t (some (.ok ()))) :
    flag = false ∧ ∃ waiting p raised, p.inProgress = false ∧
      t.events = waiting ++ (Exchange.told ⟨.progress execution, .ok p⟩ raised).events ∧
      (∀ e ∈ waiting, e.isInterrupt = false) ∧
      ∀ x ∈ waiting.filterMap Event.exchange?, x.Waits execution := by
  generalize ho : some (Except.ok ()) = o at h
  -- a round that ends well either finds the execution over or sleeps undisturbed and goes on
  induction h with
  | unfollowed | interrupted | failed | late | stopped => cases ho
  | finished rounds s p raised line done =>
    exact ⟨rfl, [], p, raised, done, by simp [Trace.noted], nofun, nofun⟩
  | again rounds s p nap t o running early slept rest ih =>
    obtain ⟨-, waiting, q, raised, hdone, hevents, hquiet, hwaits⟩ := ih ho
    refine ⟨rfl, .asked (.progress execution) (.ok p) :: (nap.events ++ waiting), q, raised, hdone,
      ?_, ?_, ?_⟩
    · simp [hevents, Trace.told]
    · have hnap : nap.raised = false := slept.undisturbed.2
      rw [Trace.raised, List.any_eq_false] at hnap
      intro e he
      rcases List.mem_cons.mp he with rfl | he
      · rfl
      · rcases List.mem_append.mp he with he | he
        · simpa using hnap e he
        · exact hquiet e he
    · have hnap : nap.events.filterMap Event.exchange? = [] := slept.exchanges
      have hcalls : (Event.asked (.progress execution) (.ok p) :: (nap.events ++ waiting)).filterMap
          Event.exchange? = ⟨.progress execution, .ok p⟩ :: waiting.filterMap Event.exchange? := by
        simp [Event.exchange?, hnap]
      rw [hcalls]
      exact List.forall_mem_cons.mpr ⟨⟨p, rfl, running⟩, hwaits⟩

/-- A waiting that never cancels and sees the execution over ends well. -/
theorem Watch.ok_of_over {execution : Execution} {polling : Polling} {started rounds : Nat} {s : σ}
    {flag : Bool} {t : Trace} {o : Option (Except OrchestrationError Unit)}
    (h : Watch env execution polling started rounds s flag t o)
    (hkept : ∀ x ∈ t.exchanges, x.call ≠ .cancel execution)
    (hover : ∃ p, p.inProgress = false ∧ ⟨.progress execution, .ok p⟩ ∈ t.exchanges) :
    o = some (.ok ()) := by
  -- a round that ends badly either cancels or learns nothing of the end
  induction h with
  | unfollowed s flag => simp at hover
  | interrupted rounds s a raised line => simp at hkept
  | failed rounds s e raised => simp at hover
  | finished rounds s p raised line done => rfl
  | late rounds s p raised a raised' line running passed => simp at hkept
  | stopped rounds s p raised nap a raised' line running early woken =>
    simp [woken.exchanges] at hkept
  | again rounds s p nap t o running early slept rest ih =>
    have hexchanges : (.told (.progress execution) (.ok p) false ++ (nap ++ t) : Trace).exchanges =
        ⟨.progress execution, .ok p⟩ :: t.exchanges := by simp [slept.exchanges]
    rw [hexchanges] at hkept hover
    apply ih (List.forall_mem_cons.mp hkept).2
    obtain ⟨q, hdone, hmem⟩ := hover
    refine ⟨q, hdone, ?_⟩
    rcases List.mem_cons.mp hmem with heq | hmem
    · -- the first query found the execution going
      cases heq
      rw [running] at hdone
      cases hdone
    · exact hmem

theorem Picked.succeeded {items active : List Item} {xs : List Exchange} (h : Picked items xs active) :
    ∀ x ∈ xs, x.succeeded := by
  induction h with
  | nil => exact nofun
  | cons active next ih => exact List.forall_mem_cons.mpr ⟨rfl, ih⟩

theorem Examined.succeeded {requested : List Scenario} {items : List Item} {xs : List Exchange}
    {actions : List ItemAction} (h : Examined requested items xs actions) :
    ∀ x ∈ xs, x.succeeded := by
  induction h with
  | nil => exact nofun
  | inactive next ih => exact List.forall_mem_cons.mpr ⟨rfl, ih⟩
  | active current next ih =>
    refine List.forall_mem_cons.mpr ⟨rfl, List.forall_mem_append.mpr ⟨?_, ih⟩⟩
    cases current <;> simp

namespace Request

variable {request : Request} {xs : List Exchange}

theorem Planned.succeeded {ctx : Orchestration} {project : Project} {c : Configuration} {task : Task}
    (h : Planned ctx project c request xs task) : ∀ x ∈ xs, x.succeeded := by
  cases h with
  | @execution request' xs ys requested plan testSets resolved devised =>
    refine List.forall_mem_append.mpr ⟨?_, List.forall_mem_append.mpr ⟨?_, by simp⟩⟩
    · cases resolved <;> simp
    · generalize request'.testSet = name at devised
      cases devised with
      | unfiltered => exact nofun
      | perItem some examined => exact List.forall_mem_cons.mpr ⟨rfl, examined.succeeded⟩
      | shared found covered filled picked => simpa using picked.succeeded
  | @report request' xs assignment named =>
    generalize request'.testSet = name at named
    cases named with
    | nothing => exact nofun
    | found found picked => simpa using picked.succeeded

/-- Planning that comes to a task has had no failing call. -/
theorem Prepared.succeeded {ctx : Orchestration} {task : Task} {g : Guard}
    (h : request.Prepared ctx xs task g) : ∀ x ∈ xs, x.succeeded := by
  cases h with
  | all data report opened required planned =>
    have hplanned := planned.succeeded
    simp only [List.forall_mem_append]
    refine ⟨⟨?_, ?_, hplanned⟩, by simp⟩
    · cases opened <;> simp
    · cases required
      simp

/-- What a success reports of the calls before work was started. -/
def accomplished (request : Request) (xs : List Exchange) : Outcome where
  configuration := request.configuration
  temporary := (xs.filterMap Exchange.created?).map (·.name)
  reassigned := (xs.filterMap (·.call.assigned?)).eraseDups
  deactivated := (xs.filterMap (·.call.deactivated?)).eraseDups

end Request

/-- Nothing is made, assigned or deactivated in planning. -/
theorem Exchange.Plans.inert {x : Exchange} (h : x.Plans) :
    x.created? = none ∧ x.call.assigned? = none ∧ x.call.deactivated? = none := by
  obtain ⟨call, a⟩ := x
  rcases h with hread | ⟨path, rfl⟩
  · cases call <;> first | exact ⟨rfl, rfl, rfl⟩ | cases hread
  · exact ⟨rfl, rfl, rfl⟩

/-- What a success reports is what its calls made, assigned and deactivated. -/
theorem Task.Altering.outcome {ctx : Orchestration} {request : Request} {task : Task} {g : Guard}
    {planning : List Exchange} {redirection alteration : Trace} {r : Except OrchestrationError Unit}
    (h : Task.Altering task g redirection alteration r)
    (prepared : request.Prepared ctx planning task g) (plans : ∀ x ∈ planning, x.Plans) :
    request.outcome (g.rememberAll (redirection ++ alteration).exchanges) =
      request.accomplished (planning ++ (redirection ++ alteration).exchanges) := by
  obtain ⟨htask, hfresh, -⟩ := prepared.facts
  have hblocks := h.carries.blocks
  have hnone {β : Type} (f : Exchange → Option β) (hf : ∀ x ∈ planning, f x = none)
      (xs : List Exchange) : (planning ++ xs).filterMap f = xs.filterMap f := by
    rw [List.filterMap_append, List.filterMap_eq_nil_iff.mpr hf, List.nil_append]
  rw [Request.accomplished, hnone _ fun x hx => (plans x hx).inert.1,
    hnone _ fun x hx => (plans x hx).inert.2.1, hnone _ fun x hx => (plans x hx).inert.2.2]
  cases task with
  | execution request' plan names =>
    obtain rfl := htask
    simp only [Task.request, Request.outcome, Request.configuration, Guard.temporaryNames,
      hfresh.temporary_rememberAll, hfresh.reassigned_rememberAll hblocks,
      hfresh.deactivated_rememberAll hblocks]
  | report request' assignment =>
    obtain rfl := htask
    have hunmade := fun x hx => Exchange.unmade_of_not_reshaping (h.unshaped_of_report x hx)
    have hcreated := List.filterMap_eq_nil_iff.mpr fun x hx => (hunmade x hx).1
    have hdeactivated := List.filterMap_eq_nil_iff.mpr fun x hx => (hunmade x hx).2
    simp only [Task.request, Request.outcome, Request.configuration, hcreated, hdeactivated,
      hfresh.reassigned_rememberAll hblocks, List.map_nil, List.eraseDups_nil]

/-- A history, begun with the flag up or down, in which nothing goes wrong, with what it accomplishes.
Planning and all changes succeed; work is started and asked after until it is over, with no interrupt
before the last answer; nothing is cancelled; and the restore is clean. -/
inductive Request.Flawless (ctx : Orchestration) (request : Request) :
    Bool → List Event → Outcome → Prop
  | all {planning changes waiting restoring task g execution p}
    (prepared : request.Prepared ctx (planning.filterMap Event.exchange?) task g)
    (succeeded : ∀ x ∈ (planning ++ changes).filterMap Event.exchange?,
      x.call.isWork = false ∧ x.succeeded)
    (quiet : ∀ e ∈ planning ++ changes ++ waiting, e.isInterrupt = false)
    (waits : ∀ x ∈ waiting.filterMap Event.exchange?, x.Waits execution)
    (ended : p.inProgress = false)
    (restored : ∀ x ∈ restoring.filterMap Event.exchange?, x.call.isWork = false ∧ x.Clean) :
    request.Flawless ctx false
      (planning ++ changes ++ (request.triggered g.configuration (.ok execution)).event ::
        (waiting ++ .asked (.progress execution) (.ok p) :: restoring))
      (request.accomplished ((planning ++ changes).filterMap Event.exchange?))

/-- What a flawless history accomplishes names no item twice. -/
theorem Request.Flawless.nodup {ctx : Orchestration} {request : Request} {flag : Bool}
    {events : List Event} {outcome : Outcome} (h : request.Flawless ctx flag events outcome) :
    outcome.reassigned.Nodup ∧ outcome.deactivated.Nodup := by
  cases h
  exact ⟨nodup_eraseDups _, nodup_eraseDups _⟩

/-- Once work is started, nothing but queries to the end of it and a clean restore is a success. -/
theorem Request.Departs.ok {ctx : Orchestration} {request : Request} {c : Configuration}
    {execution : Execution} {before after : List Exchange} {p : Progress}
    {o : Option (Except OrchestrationError Outcome)}
    (h : request.Departs env ctx (request.triggered c (.ok execution)) before after o)
    (hkinds : ∀ x ∈ after, x.call = .progress execution ∨ x.call.isWork = false ∧ x.Clean)
    (ended : p.inProgress = false) (hlast : ⟨.progress execution, .ok p⟩ ∈ after) :
    o = some (.ok (request.accomplished before)) := by
  generalize hx : request.triggered c (.ok execution) = x at h
  obtain @⟨planning, waiting, restoring, task, g, redirection, alteration, r, _, plans, prepared,
    altering, departs, idle, concluded⟩ := h
  cases departs with
  | refused e => cases (triggered_inj hx).2
  | @started execution' started s flag watched r watch =>
    cases (triggered_inj hx).2
    have hkept : ∀ y ∈ watched.exchanges, y.call ≠ .cancel execution := by
      intro y hy hcall
      rcases hkinds y (List.mem_append_left _ hy) with hquery | ⟨hidle, -⟩
      · rw [hcall] at hquery
        cases hquery
      · rw [hcall] at hidle
        cases hidle
    -- a query is work, so the last one belongs to the waiting and none to the restore
    have hover : ⟨.progress execution, .ok p⟩ ∈ watched.exchanges := by
      rcases List.mem_append.mp hlast with hmem | hmem
      · exact hmem
      · cases idle _ hmem
    have hclean : ∀ y ∈ restoring, y.Clean := by
      intro y hy
      rcases hkinds y (List.mem_append_right _ hy) with hquery | ⟨-, hclean⟩
      · have hidle := idle y hy
        rw [hquery] at hidle
        cases hidle
      · exact hclean
    obtain ⟨failures, hrestores, rfl⟩ := concluded _ (watch.ok_of_over hkept ⟨p, ended, hover⟩)
    obtain rfl := hrestores.clean.mpr hclean
    rw [altering.outcome prepared plans]
    rfl

/-- A flawless history ends in success. -/
theorem Course.ok_of_flawless {ctx : Orchestration} {request : Request} {s : σ} {flag : Bool}
    {t : Trace} {o : Option (Except OrchestrationError Outcome)} {outcome : Outcome}
    (h : Course env ctx request s flag t o) (hf : request.Flawless ctx flag t.events outcome) :
    o = some (.ok outcome) := by
  generalize hevents : t.events = events at hf
  obtain @⟨planning, changes, waiting, restoring, task, g, execution, p, prepared, succeeded, quiet,
    waits, ended, restored⟩ := hf
  have hparts : t.exchanges = (planning ++ changes).filterMap Event.exchange? ++
      request.triggered g.configuration (.ok execution) ::
        (waiting.filterMap Event.exchange? ++
          ⟨.progress execution, .ok p⟩ :: restoring.filterMap Event.exchange?) := by
    simp [Trace.exchanges, hevents, Event.exchange?]
  have htrigger : (request.triggered g.configuration (.ok execution)).call.isTrigger = true := by
    cases request <;> rfl
  apply (h.departs htrigger hparts).ok _ ended (List.mem_append_right _ List.mem_cons_self)
  intro x hx
  rw [List.mem_append, List.mem_cons] at hx
  rcases hx with hx | rfl | hx
  · obtain ⟨q, rfl, -⟩ := waits x hx
    exact .inl rfl
  · exact .inl rfl
  · exact .inr (restored x hx)

/-- The end of a history that succeeds. -/
theorem concludeResult_ok {α : Type} {result : Except OrchestrationError α}
    {failures : List RestoreFailure} {a : α} (h : concludeResult result failures = .ok a) :
    result = .ok a ∧ failures = [] := by
  unfold concludeResult at h
  split at h
  · cases h
  · split at h
    · next hempty => exact ⟨h, List.isEmpty_iff.mp hempty⟩
    · cases h

/-- The events of work that was started, asked after until it was over, and never interrupted in sight
of the program. The interrupt may come in during the last query, which is too late to be seen. -/
inductive Request.Worked (request : Request) (c : Configuration) : List Event → Prop
  | all {execution waiting p} (raised) (quiet : ∀ e ∈ waiting, e.isInterrupt = false)
    (waits : ∀ x ∈ waiting.filterMap Event.exchange?, x.Waits execution)
    (ended : p.inProgress = false) :
    request.Worked c ((request.triggered c (.ok execution)).event ::
      (waiting ++ (Exchange.told ⟨.progress execution, .ok p⟩ raised).events))

/-- The labour of a task ends well only if it began with the flag down. -/
theorem Task.Labour.of_ok {ctx : Orchestration} {task : Task} {c : Configuration} {s : σ} {flag : Bool}
    {t : Trace} (h : Task.Labour env ctx task c s flag t (some (.ok ()))) :
    flag = false ∧ task.request.Worked c t.events := by
  generalize ho : some (Except.ok ()) = o at h
  cases h with
  | forestalled | refused => cases ho
  | started execution raised line s' watched o hs watch =>
    obtain rfl := ho
    obtain ⟨rfl, waiting, p, raised, ended, hevents, hquiet, hwaits⟩ := watch.of_ok
    have hworked : task.request.Worked c _ := .all raised hquiet hwaits ended
    rw [← hevents] at hworked
    exact ⟨rfl, by simpa [Trace.told, Trace.noted] using hworked⟩

theorem Task.Region.of_ok {ctx : Orchestration} {task : Task} {g g' : Guard} {s : σ} {flag : Bool}
    {t : Trace} (h : Task.Region env ctx task g s flag t (some (.ok (), g'))) :
    ∃ redirection alteration labour, t = redirection ++ alteration ++ labour ∧
      Task.Altering task g redirection alteration (.ok ()) ∧
      g' = g.rememberAll (redirection ++ alteration).exchanges ∧
      (flag || (redirection ++ alteration).raised) = false ∧
      task.request.Worked g.configuration labour.events := by
  generalize ho : some (Except.ok (), g') = o at h
  cases h with
  | failed redirection alteration e altering => cases ho
  | worked redirection alteration labour o' altering labours =>
    obtain ⟨r, rfl, hpair⟩ := Option.map_eq_some_iff.mp ho.symm
    cases hpair
    exact ⟨redirection, alteration, labour, rfl, altering, rfl, labours.of_ok⟩

/-- Work that came to its end lies between flawless changes and a clean restore. -/
theorem Request.Worked.flawless {ctx : Orchestration} {request : Request} {task : Task} {g : Guard}
    {planning changes work restoring : List Event}
    (h : request.Worked g.configuration work)
    (prepared : request.Prepared ctx (planning.filterMap Event.exchange?) task g)
    (succeeded : ∀ x ∈ (planning ++ changes).filterMap Event.exchange?,
      x.call.isWork = false ∧ x.succeeded)
    (quiet : ∀ e ∈ planning ++ changes, e.isInterrupt = false)
    (restored : ∀ x ∈ restoring.filterMap Event.exchange?, x.call.isWork = false ∧ x.Clean) :
    request.Flawless ctx false (planning ++ changes ++ (work ++ restoring))
      (request.accomplished ((planning ++ changes).filterMap Event.exchange?)) := by
  cases h with
  | @all execution waiting p raised hquiet waits ended =>
    -- an interrupt during the last query is no call, so it may stand at the head of the restore
    have hlast : (if raised then [Event.interrupted] else []).filterMap Event.exchange? = [] := by
      cases raised <;> rfl
    have hrestored : ∀ x ∈ ((if raised then [Event.interrupted] else []) ++
        restoring).filterMap Event.exchange?, x.call.isWork = false ∧ x.Clean := by
      rw [List.filterMap_append, hlast, List.nil_append]
      exact restored
    have hquiet := List.forall_mem_append.mpr ⟨quiet, hquiet⟩
    have hall := Flawless.all prepared succeeded hquiet waits ended hrestored
    simpa [Trace.told] using hall

/-- A success has a flawless history. -/
theorem Course.flawless_of_ok {ctx : Orchestration} {request : Request} {s : σ} {flag : Bool}
    {t : Trace} {outcome : Outcome} (h : Course env ctx request s flag t (some (.ok outcome))) :
    request.Flawless ctx flag t.events outcome := by
  generalize ho : some (Except.ok outcome) = o at h
  cases h with
  | unprepared | unfinished => cases ho
  | finished planning work restoration line task g result g' failures awake preparing prepared
      region restored =>
    obtain ⟨hresult, rfl⟩ := concludeResult_ok (Option.some.inj ho).symm
    cases result with
    | error e => cases hresult
    | ok u =>
      cases hresult
      obtain ⟨redirection, alteration, labour, rfl, altering, rfl, hdown, hworked⟩ := region.of_ok
      rw [Bool.or_eq_false_iff, Bool.or_eq_false_iff] at hdown
      obtain ⟨⟨rfl, hplanned⟩, hchanged⟩ := hdown
      -- the guard remembers what the calls tell, so the outcome can be read off the calls
      rw [altering.outcome prepared preparing.plans]
      have hfaultless := altering.carries.faultless rfl
      have hidle := altering.idle_calls
      generalize redirection ++ alteration = changes at hchanged hfaultless hidle ⊢
      have hnone {t : Trace} (h : t.raised = false) : ∀ e ∈ t.events, e.isInterrupt = false := by
        simpa [Trace.raised] using h
      have hquiet := List.forall_mem_append.mpr ⟨hnone hplanned, hnone hchanged⟩
      have hsucceeded : ∀ x ∈ (planning.events ++ changes.events).filterMap Event.exchange?,
          x.call.isWork = false ∧ x.succeeded := by
        rw [List.filterMap_append]
        refine List.forall_mem_append.mpr ⟨fun x hx => ?_, fun x hx => ?_⟩
        · exact ⟨preparing.idle_calls x hx, prepared.succeeded x hx⟩
        · exact ⟨hidle x hx, hfaultless x hx⟩
      have hrestored : ∀ x ∈ restoration.exchanges, x.call.isWork = false ∧ x.Clean := fun x hx =>
        ⟨restored.restores.comprises.idle x hx, restored.restores.clean.mp rfl x hx⟩
      rw [prepared.facts.1] at hworked
      have hall := hworked.flawless prepared hsucceeded hquiet hrestored
      simpa [Trace.exchanges, Trace.noted] using hall

/-- How the end of the guarded work and the failures of the restore are put together. -/
inductive Verdict (outcome : Outcome) : Except OrchestrationError Unit → List RestoreFailure →
    Except OrchestrationError Outcome → Prop
  | interrupted (failures) : Verdict outcome (.error .interrupted) failures (.error .interrupted)
  | spoilt {failures} (left : failures ≠ []) : Verdict outcome (.ok ()) failures
    (.error (.restoreIncomplete (failures.map (·.message)) none))
  | spoiltAfter {e failures} (other : e ≠ .interrupted) (left : failures ≠ []) :
    Verdict outcome (.error e) failures
      (.error (.restoreIncomplete (failures.map (·.message)) (some e.message)))
  | failed {e} (other : e ≠ .interrupted) : Verdict outcome (.error e) [] (.error e)
  | succeeded : Verdict outcome (.ok ()) [] (.ok outcome)

theorem verdict_concludeResult (outcome : Outcome) (result : Except OrchestrationError Unit)
    (failures : List RestoreFailure) :
    Verdict outcome result failures (concludeResult (result.map fun _ => outcome) failures) := by
  cases result with
  | ok u =>
    cases failures with
    | nil => exact .succeeded
    | cons failure rest => exact .spoilt (List.cons_ne_nil _ _)
  | error e =>
    change Verdict outcome _ _ (concludeResult (.error e) failures)
    by_cases he : e = .interrupted
    · rw [he]
      exact .interrupted failures
    · unfold concludeResult
      split
      · next heq => exact absurd (Except.error.inj heq) he
      · cases failures with
        | nil => exact .failed he
        | cons failure rest => exact .spoiltAfter he (List.cons_ne_nil _ _)

/-- How an orchestration came to its result: it ended before there was a guard, or the guarded work ended
somehow, the guard it left was restored, and the verdict was on the two. -/
inductive Request.Concluded (env : Environment σ) (ctx : Orchestration) (request : Request)
    (w : World σ) : Except OrchestrationError Outcome → Prop
  | unbegun {e w₁} (prepared : Session.run (request.prepare ctx).run env w = (some (.error e), w₁)) :
    request.Concluded env ctx w (.error e)
  | begun {task g w₁ result g' w₂ failures w₃ restoring r}
    (prepared : Session.run (request.prepare ctx).run env w = (some (.ok (task, g)), w₁))
    (worked : Session.run (Guarded.under g (task.perform ctx)) env w₁ = (some (result, g'), w₂))
    (restored : Session.run g'.restore env w₂ = (some failures, w₃))
    (calls : w₃.events = w₂.events ++ restoring)
    (restores : g'.Restores (restoring.filterMap Event.exchange?) failures)
    (verdict : Verdict (request.outcome g') result failures r) :
    request.Concluded env ctx w r

theorem Request.concluded {ctx : Orchestration} {request : Request} {w' : World σ}
    {r : Except OrchestrationError Outcome}
    (h : Session.run (request.orchestrate ctx).run env w = (some r, w')) :
    request.Concluded env ctx w r := by
  obtain ⟨done, failed, hconduct⟩ := Request.orchestrate_eq (σ := σ) ctx request
  rw [hconduct, Request.conduct, Attempt.run_bind, Session.run_bind] at h
  generalize hprepared : Session.run (request.prepare ctx).run env w = prepared at h
  rcases prepared with ⟨_ | e | ⟨task, g⟩, w₁⟩
  · cases h
  · obtain rfl : Except.error e = r := Option.some.inj (congrArg Prod.fst h)
    exact .unbegun hprepared
  dsimp only at h
  rw [Attempt.run_lift_bind, conclude_eq, bind_assoc, Session.run_bind] at h
  generalize hworked : Session.run (Guarded.under g (task.perform ctx)) env w₁ = worked at h
  rcases worked with ⟨_ | ⟨result, g'⟩, w₂⟩
  · cases h
  -- a restore always comes to an end
  have hrestore : Returns env w₂ g'.restore fun t fs => g'.Restores t.exchanges fs ∧ _ :=
    returns_restore g'
  obtain ⟨t, failures, w₃, hrestored, hl, -, hrestores, -⟩ := hrestore
  have hannounce : Returns env w₃ (announceIncomplete failures) _ :=
    returns_announceIncomplete failures
  obtain ⟨-, u, w₄, hannounced, -⟩ := hannounce
  refine .begun hprepared hworked hrestored hl.events hrestores ?_
  have hverdict := verdict_concludeResult (request.outcome g') result failures
  simp only [bind_assoc, pure_bind, Session.run_bind, hrestored, hannounced] at h
  generalize concludeResult (result.map fun _ => request.outcome g') failures = concluded at h hverdict
  -- what is still noted does not change the result
  have hresult : some concluded = some r := by
    cases concluded <;> exact congrArg Prod.fst h
  exact Option.some.inj hresult ▸ hverdict

/-- An orchestration succeeds just when nothing went wrong, and then reports what it made, assigned and
deactivated, each item once. However it ends, it ends as the guarded work and the restore decide. -/
theorem orchestrate_concludes (env : Environment σ) (ctx : Orchestration) (request : Request)
    (w : World σ) :
    ∃ events, (Session.run (request.orchestrate ctx).run env w).2.events = w.events ++ events ∧
      (∀ outcome, (Session.run (request.orchestrate ctx).run env w).1 = some (.ok outcome) ↔
        request.Flawless ctx w.interrupted events outcome) ∧
      (∀ outcome, (Session.run (request.orchestrate ctx).run env w).1 = some (.ok outcome) →
        outcome.reassigned.Nodup ∧ outcome.deactivated.Nodup) ∧
      ∀ r, (Session.run (request.orchestrate ctx).run env w).1 = some r →
        request.Concluded env ctx w r := by
  obtain ⟨t, hevents, hcourse⟩ := orchestrate_course env ctx request w
  have hflawless (outcome : Outcome)
      (h : (Session.run (request.orchestrate ctx).run env w).1 = some (.ok outcome)) :
      request.Flawless ctx w.interrupted t.events outcome := by
    rw [h] at hcourse
    exact hcourse.flawless_of_ok
  refine ⟨t.events, hevents, fun outcome => ?_, fun outcome h => ?_, fun r h => ?_⟩
  · exact ⟨hflawless outcome, fun hf => hcourse.ok_of_flawless hf⟩
  · exact (hflawless outcome h).nodup
  · generalize hrun : Session.run (request.orchestrate ctx).run env w = result at h
    obtain ⟨o, w'⟩ := result
    obtain rfl : o = some r := h
    exact Request.concluded hrun

theorem login_flawless : ∃ events outcome,
    (Request.execution loginRequest).Flawless { rounds := 3 } false events outcome ∧
      outcome.temporary.map (·.text) = ["JENKINS Exec 1"] ∧
      outcome.reassigned = [⟨⟨"i1"⟩, 0⟩] ∧ outcome.deactivated = [⟨⟨"i2"⟩, 1⟩] := by
  have hok : ((Session.run ((Request.execution loginRequest).orchestrate { rounds := 3 }).run
      Rehearsal.environment { outside := Rehearsal.small }).1.bind Except.toOption).any (fun outcome =>
        decide (outcome.temporary.map (·.text) = ["JENKINS Exec 1"] ∧
          outcome.reassigned = [⟨⟨"i1"⟩, 0⟩] ∧ outcome.deactivated = [⟨⟨"i2"⟩, 1⟩])) = true := by
    decide +kernel
  obtain ⟨events, -, hiff, -, -⟩ := orchestrate_concludes Rehearsal.environment { rounds := 3 }
    (.execution loginRequest) { outside := Rehearsal.small }
  generalize (Session.run ((Request.execution loginRequest).orchestrate { rounds := 3 }).run
    Rehearsal.environment { outside := Rehearsal.small }).1 = result at hok hiff
  rcases result with _ | e | outcome
  · cases hok
  · cases hok
  · exact ⟨events, outcome, (hiff outcome).mp rfl, of_decide_eq_true hok⟩

end GuardedRun
