import GuardedRun.Proofs.Recovery

/-! The call that starts the work. It parts the calls of an orchestration in two: by then planning and
all changes have gone well, and what is left is a waiting and a restore. -/

namespace GuardedRun

variable {σ : Type} {env : Environment σ}

open Session Guard

theorem not_mem_of_idle {x : Exchange} (hx : x.call.isTrigger = true) {xs : List Exchange}
    (h : ∀ y ∈ xs, y.call.isWork = false) : x ∉ xs := by
  intro hmem
  have hidle := Call.isTrigger_of_not_isWork (h x hmem)
  rw [hx] at hidle
  cases hidle

theorem Awaited.not_mem {execution : Execution} {xs : List Exchange} {x : Exchange}
    (h : Awaited execution xs) (hx : x.call.isTrigger = true) : x ∉ xs := by
  intro hmem
  have hpos : 0 < xs.countP (·.call.isTrigger) := List.countP_pos_iff.mpr ⟨x, hmem, hx⟩
  have hzero := h.countP_trigger
  omega

theorem Request.triggered_inj {request : Request} {c c' : Configuration}
    {a a' : Except EngineError Execution}
    (h : request.triggered c a = request.triggered c' a') : c = c' ∧ a = a' := by
  cases request <;> cases h <;> exact ⟨rfl, rfl⟩

theorem Request.Preparing.idle_calls {request : Request} {xs : List Exchange}
    {directories : Option (Path × Path)} (h : request.Preparing xs directories) :
    ∀ x ∈ xs, x.call.isWork = false := by
  intro x hx
  rcases h.plans x hx with hread | ⟨path, hopen⟩
  · exact Call.isWork_of_isRead hread
  · rw [hopen]
    rfl

namespace Task

variable {ctx : Orchestration} {task : Task} {g : Guard} {s : σ} {flag : Bool} {t : Trace}

theorem Altering.idle_calls {redirection alteration : Trace} {r : Except OrchestrationError Unit}
    (h : Altering task g redirection alteration r) :
    ∀ x ∈ (redirection ++ alteration).exchanges, x.call.isWork = false := by
  rw [Trace.exchanges_append]
  refine List.forall_mem_append.mpr ⟨fun x hx => ?_, fun x hx => ?_⟩
  · exact Call.isWork_of_isRedirect (h.redirects x hx)
  · exact Call.isWork_of_isChange (h.change_kinds x hx)

/-- The call that starts the work, the calls that wait for it, and what comes of it. -/
inductive Departs (env : Environment σ) (ctx : Orchestration) (request : Request)
    (c : Configuration) : Exchange → List Exchange → Option (Except OrchestrationError Unit) → Prop
  | refused (e) : Departs env ctx request c (request.triggered c (.error e)) []
    (some (.error (.remoteFault .trigger e)))
  | started {execution started s flag watched o}
    (watch : Watch env execution ctx.polling started ctx.rounds s flag watched o) :
    Departs env ctx request c (request.triggered c (.ok execution)) watched.exchanges o

/-- Between calls that are no work, the call that starts work is the first one of the labour. -/
theorem Labour.departs {c : Configuration} {o : Option (Except OrchestrationError Unit)}
    (h : Labour env ctx task c s flag t o) {pre post before after : List Exchange} {x : Exchange}
    (hx : x.call.isTrigger = true) (hpre : x ∉ pre) (hpost : x ∉ post)
    (hparts : pre ++ (t.exchanges ++ post) = before ++ x :: after) :
    pre = before ∧ ∃ waiting, after = waiting ++ post ∧ Departs env ctx task.request c x waiting o := by
  cases h with
  | forestalled line =>
    have hmem : x ∈ pre ++ ((Trace.noted line).exchanges ++ post) := by
      rw [hparts]
      exact List.mem_append_right _ List.mem_cons_self
    exact absurd (List.mem_append.mp hmem) (not_or.mpr ⟨hpre, hpost⟩)
  | refused e raised =>
    rw [Trace.exchanges_told] at hparts
    obtain ⟨hbefore, rfl, hafter⟩ := parts_of_split hpre hpost hparts
    exact ⟨hbefore, [], hafter.symm, .refused e⟩
  | started execution raised line s' watched o hs watch =>
    have hexchanges : ((task.request.triggered c (.ok execution)).told raised ++
        (.noted line ++ watched)).exchanges =
          task.request.triggered c (.ok execution) :: watched.exchanges := by simp
    rw [hexchanges] at hparts
    -- the waiting starts nothing, so there is no second call to take for the first one
    have hrest := mt List.mem_append.mp (not_or.mpr ⟨watch.awaited.not_mem hx, hpost⟩)
    obtain ⟨hbefore, rfl, hafter⟩ := parts_of_split hpre hrest hparts
    exact ⟨hbefore, _, hafter.symm, .started watch⟩

/-- Before work is started under a guard, all changes have gone well. -/
theorem Region.departs {o : Option (Except OrchestrationError Unit × Guard)}
    (h : Region env ctx task g s flag t o) {pre post before after : List Exchange} {x : Exchange}
    (hx : x.call.isTrigger = true) (hpre : ∀ y ∈ pre, y.call.isWork = false)
    (hpost : ∀ y ∈ post, y.call.isWork = false)
    (hparts : pre ++ (t.exchanges ++ post) = before ++ x :: after) :
    ∃ redirection alteration waiting r, before = pre ++ (redirection ++ alteration).exchanges ∧
      after = waiting ++ post ∧ Altering task g redirection alteration (.ok ()) ∧
      Departs env ctx task.request g.configuration x waiting r ∧
      o = r.map (·, g.rememberAll (redirection ++ alteration).exchanges) := by
  have hafter := not_mem_of_idle hx hpost
  have hbefore {redirection alteration : Trace} {r : Except OrchestrationError Unit}
      (ha : Altering task g redirection alteration r) :
      x ∉ pre ++ (redirection ++ alteration).exchanges :=
    not_mem_of_idle hx (List.forall_mem_append.mpr ⟨hpre, ha.idle_calls⟩)
  cases h with
  | failed redirection alteration e altering =>
    have hmem : x ∈ pre ++ (redirection ++ alteration).exchanges ++ post := by
      rw [List.append_assoc, hparts]
      exact List.mem_append_right _ List.mem_cons_self
    exact absurd (List.mem_append.mp hmem) (not_or.mpr ⟨hbefore altering, hafter⟩)
  | worked redirection alteration labour r altering labours =>
    have hsplit : pre ++ (redirection ++ alteration).exchanges ++ (labour.exchanges ++ post) =
        before ++ x :: after := by
      rw [← hparts, Trace.exchanges_append (redirection ++ alteration) labour, List.append_assoc,
        List.append_assoc]
    obtain ⟨hsame, waiting, hwaiting, hdeparts⟩ := labours.departs hx (hbefore altering) hafter hsplit
    exact ⟨redirection, alteration, waiting, r, hsame.symm, hwaiting, altering, hdeparts, rfl⟩

end Task

/-- What comes before and after the call that starts the work: planning and the changes, all of them
made, then the waiting and, unless that was followed no further, the restore of the guard. -/
inductive Request.Departs (env : Environment σ) (ctx : Orchestration) (request : Request)
    (x : Exchange) : List Exchange → List Exchange →
      Option (Except OrchestrationError Outcome) → Prop
  | all {planning waiting restoring task g redirection alteration r o}
    (plans : ∀ y ∈ planning, y.Plans) (prepared : request.Prepared ctx planning task g)
    (altering : Task.Altering task g redirection alteration (.ok ()))
    (departs : Task.Departs env ctx request g.configuration x waiting r)
    (idle : ∀ y ∈ restoring, y.call.isWork = false)
    (concluded : ∀ result, r = some result → ∃ failures,
      (g.rememberAll (redirection ++ alteration).exchanges).Restores restoring failures ∧
        o = some (concludeResult (result.map fun _ =>
          request.outcome (g.rememberAll (redirection ++ alteration).exchanges)) failures)) :
    request.Departs env ctx x (planning ++ (redirection ++ alteration).exchanges)
      (waiting ++ restoring) o

theorem Course.departs {ctx : Orchestration} {request : Request} {s : σ} {flag : Bool} {t : Trace}
    {o : Option (Except OrchestrationError Outcome)} (h : Course env ctx request s flag t o)
    {before after : List Exchange} {x : Exchange} (hx : x.call.isTrigger = true)
    (hparts : t.exchanges = before ++ x :: after) : request.Departs env ctx x before after o := by
  cases h with
  | unprepared planning e awake preparing =>
    have habsent := not_mem_of_idle hx preparing.idle_calls
    rw [hparts] at habsent
    exact absurd (List.mem_append_right _ List.mem_cons_self) habsent
  | unfinished planning work task g awake preparing prepared region =>
    have hsplit : planning.exchanges ++ (work.exchanges ++ []) = before ++ x :: after := by
      rw [List.append_nil, ← Trace.exchanges_append, hparts]
    obtain ⟨redirection, alteration, waiting, r, rfl, rfl, altering, hdeparts, ho⟩ :=
      region.departs hx preparing.idle_calls (List.forall_mem_nil _) hsplit
    rw [prepared.facts.1] at hdeparts
    refine .all preparing.plans prepared altering hdeparts (List.forall_mem_nil _) fun result hr => ?_
    obtain rfl := hr
    cases ho
  | finished planning work restoration line task g result g' failures awake preparing prepared
      region restored =>
    have hsplit : planning.exchanges ++ (work.exchanges ++ restoration.exchanges) =
        before ++ x :: after := by simpa using hparts
    have hidle := restored.restores.comprises.idle
    obtain ⟨redirection, alteration, waiting, r, rfl, rfl, altering, hdeparts, ho⟩ :=
      region.departs hx preparing.idle_calls hidle hsplit
    rw [prepared.facts.1] at hdeparts
    refine .all preparing.plans prepared altering hdeparts hidle fun result' hr => ?_
    obtain rfl := hr
    cases ho
    exact ⟨failures, restored.restores, rfl⟩

end GuardedRun
