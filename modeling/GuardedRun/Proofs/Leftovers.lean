import GuardedRun.Proofs.Conclusion
import GuardedRun.Proofs.Rig
import GuardedRun.Proofs.Shelf

/-! Leftovers. A guard deletes the test sets that it was told of. One that was made by a call whose reply was
lost is not among them, and stays; where an id is given out twice, a former test set goes. Nothing else keeps
the lists of test sets from being what they were, unless a restore is said to be incomplete. -/

namespace GuardedRun

open Session Guard

variable {σ : Type} {env : Environment σ}

/-- The calls up to a restore, and those of a restore that succeeds: test sets are made in one project, and
those that were told of are deleted from it. -/
structure Tidies (project : Project) (xs ys : List Exchange) : Prop where
  makes : ∀ x ∈ xs, ∀ p name, x.call = .createTestSet p name → p = project
  keeps : ∀ x ∈ xs, x.call.deleted? = none
  uncreating : ∀ x ∈ ys, x.call.isCreation = false
  deletes : ∀ x ∈ ys, ∀ p testSet, x.call = .deleteTestSet p testSet →
    p = project ∧ testSet ∈ xs.filterMap Exchange.created?
  tidy : ∀ testSet ∈ xs.filterMap Exchange.created?, ⟨.deleteTestSet project testSet, .ok ()⟩ ∈ ys

namespace Guard

variable {g : Guard} {xs ys : List Exchange} {failures : List RestoreFailure}

/-- Changes make test sets in the guarded project and in no other. -/
theorem Blocks.makes (h : g.Blocks xs) :
    ∀ x ∈ xs, ∀ p name, x.call = .createTestSet p name → p = g.project := by
  induction h with
  | nil g => exact nofun
  | cons first rest ih =>
    rw [project_rememberAll] at ih
    refine List.forall_mem_append.mpr ⟨?_, ih⟩
    cases first <;> simp +contextual

/-- A restore with no failure has deleted what the guard remembers. -/
theorem Restores.deleted (h : g.Restores ys failures) (hclean : failures = []) {testSet : TestSet}
    (hmade : testSet ∈ g.temporary) : ⟨.deleteTestSet g.project testSet, .ok ()⟩ ∈ ys := by
  have hundoing : .deleteTestSet g.project testSet ∈ g.undoing := by
    simp only [undoing, List.mem_append, List.mem_map]
    exact .inl (.inr ⟨testSet, hmade, rfl⟩)
  rw [← h.comprises.changes] at hundoing
  obtain ⟨⟨call, a⟩, hx, hcall⟩ := List.mem_map.mp (List.mem_filter.mp hundoing).1
  obtain rfl : call = .deleteTestSet g.project testSet := hcall
  have hok : a.isOk = true := (h.clean.mp hclean _ hx).1
  cases a with
  | ok u => exact hx
  | error e => cases hok

end Guard

/-- What makes or deletes a test set has an effect. -/
theorem Call.inert_of_isEffect {c : Call} (h : c.isEffect = false) :
    c.isCreation = false ∧ c.deleted? = none := by
  cases c <;> first | exact ⟨rfl, rfl⟩ | cases h

theorem Call.inert_of_isWork {c : Call} (h : c.isWork = true) :
    c.isCreation = false ∧ c.deleted? = none := by
  cases c <;> first | exact ⟨rfl, rfl⟩ | cases h

theorem Exchange.uncreated {x : Exchange} (h : x.call.isCreation = false) :
    x.created? = none ∧ ∀ p name, x.call ≠ .createTestSet p name := by
  obtain ⟨call, a⟩ := x
  cases call <;> first | exact ⟨rfl, nofun⟩ | cases h

theorem Exchange.created_of_inert {xs : List Exchange} (h : ∀ x ∈ xs, x.call.isCreation = false) :
    xs.filterMap Exchange.created? = [] :=
  List.filterMap_eq_nil_iff.mpr fun x hx => (Exchange.uncreated (h x hx)).1

theorem Exchange.makes_of_inert {xs : List Exchange} (h : ∀ x ∈ xs, x.call.isCreation = false)
    (project : Project) : ∀ x ∈ xs, ∀ p name, x.call = .createTestSet p name → p = project :=
  fun x hx p name hcall => absurd hcall ((Exchange.uncreated (h x hx)).2 p name)

theorem Tidies.of_inert {xs : List Exchange}
    (h : ∀ x ∈ xs, x.call.isCreation = false ∧ x.call.deleted? = none) (project : Project) :
    Tidies project xs [] where
  makes := Exchange.makes_of_inert (fun x hx => (h x hx).1) project
  keeps x hx := (h x hx).2
  uncreating := nofun
  deletes := nofun
  tidy := by
    rw [Exchange.created_of_inert fun x hx => (h x hx).1]
    exact nofun

/-- Changes under a guard, between calls that make and delete nothing, and a restore with no failure. -/
theorem Tidies.of_restores {g : Guard} {planning xs labour ys : List Exchange} {failures : List RestoreFailure}
    (hg : g.Fresh) (hplanning : ∀ x ∈ planning, x.call.isCreation = false ∧ x.call.deleted? = none)
    (hblocks : g.Blocks xs) (hlabour : ∀ x ∈ labour, x.call.isCreation = false ∧ x.call.deleted? = none)
    (hrestores : (g.rememberAll xs).Restores ys failures) (hclean : failures = []) :
    Tidies g.project (planning ++ (xs ++ labour)) ys := by
  have hundoes : ∀ x ∈ ys, (g.rememberAll xs).Undoes x.call :=
    hrestores.comprises.undoes (List.Subset.refl _)
  have hcreated : (planning ++ (xs ++ labour)).filterMap Exchange.created? =
      (g.rememberAll xs).temporary := by
    rw [hg.temporary_rememberAll, List.filterMap_append, List.filterMap_append,
      Exchange.created_of_inert fun x hx => (hplanning x hx).1,
      Exchange.created_of_inert fun x hx => (hlabour x hx).1, List.nil_append, List.append_nil]
  constructor
  · refine List.forall_mem_append.mpr ⟨?_, List.forall_mem_append.mpr ⟨hblocks.makes, ?_⟩⟩
    · exact Exchange.makes_of_inert (fun x hx => (hplanning x hx).1) g.project
    · exact Exchange.makes_of_inert (fun x hx => (hlabour x hx).1) g.project
  · refine List.forall_mem_append.mpr ⟨fun x hx => (hplanning x hx).2,
      List.forall_mem_append.mpr ⟨fun x hx => (hblocks.keeps x hx).1, fun x hx => (hlabour x hx).2⟩⟩
  · exact fun x hx => (hundoes x hx).uncreating
  · intro x hx p testSet hcall
    have hdelete := hundoes x hx
    rw [hcall] at hdelete
    cases hdelete with
    | delete _ made => exact ⟨project_rememberAll g xs, hcreated ▸ made⟩
  · intro testSet hmade
    rw [hcreated] at hmade
    have hdeleted := hrestores.deleted hclean hmade
    rwa [project_rememberAll] at hdeleted

/-- A run that returns tells of an incomplete restore, or has deleted what it was told of. -/
theorem Course.tidies {ctx : Orchestration} {request : Request} {s : σ} {flag : Bool} {t : Trace}
    {r : Except OrchestrationError Outcome} (h : Course env ctx request s flag t (some r)) :
    (∃ failures, incomplete failures ∈ t.lines) ∨
      ∃ project xs ys, t.exchanges = xs ++ ys ∧ Tidies project xs ys := by
  generalize ho : some r = o at h
  cases h with
  | unprepared planning e awake preparing =>
    have hinert := fun x hx => Call.inert_of_isEffect (preparing.pure x hx)
    exact .inr ⟨⟨⟨""⟩, request.project⟩, _, [], (List.append_nil _).symm, .of_inert hinert _⟩
  | unfinished => cases ho
  | finished planning work restoration line task g result g' failures awake preparing prepared
      region restored =>
    by_cases hclean : failures = []
    · right
      obtain ⟨redirection, alteration, r, labour, hwork, altering, hlabour, hg'⟩ := region.altered
      obtain rfl := hg' result g' rfl
      refine ⟨g.project, planning.exchanges ++ ((redirection ++ alteration).exchanges ++ labour),
        restoration.exchanges, ?_, ?_⟩
      · simp only [Trace.exchanges_append, Trace.exchanges_noted, List.append_nil, hwork,
          List.append_assoc]
      · exact .of_restores prepared.facts.2.1 (fun x hx => Call.inert_of_isEffect (preparing.pure x hx))
          altering.carries.blocks (fun x hx => Call.inert_of_isWork (hlabour.isWork x hx))
          restored.restores hclean
    · left
      refine ⟨failures, ?_⟩
      simp [restored.announced hclean]

/-- The making of a test set in a project was answered with an id. -/
def Told (events : List Event) (project : Project) (id : ObjectId) : Prop :=
  ∃ name testSet, .asked (.createTestSet project name) (.ok testSet) ∈ events ∧ testSet.id = id

/-- Every test set that the calls of a history put among the others bears an id that the history was told,
and no former test set of the project bears such an id. -/
structure Answered (env : Environment σ) (shelf : σ → Shelf) (s : σ) (events : List Event) : Prop where
  lost : env.Always shelf (fun x sh sh' => ∀ project made, x.Loses sh sh' project made →
    Told events project made.id) s events
  unused : ∀ project id, Told events project id →
    ∀ testSet ∈ (shelf s).listed project.id, testSet.id ≠ id

theorem Event.mem_exchanges {events : List Event} {call : Call} {answer : Except EngineError call.Reply} :
    ⟨call, answer⟩ ∈ events.filterMap Event.exchange? ↔ .asked call answer ∈ events := by
  rw [List.mem_filterMap]
  constructor
  · rintro ⟨event, hevent, hexchange⟩
    cases event with
    | asked call' answer' =>
      cases hexchange
      exact hevent
    | _ => cases hexchange
  · intro h
    exact ⟨_, h, rfl⟩

theorem Exchange.mem_created {xs : List Exchange} {testSet : TestSet} :
    testSet ∈ xs.filterMap Exchange.created? ↔
      ∃ project name, ⟨.createTestSet project name, .ok testSet⟩ ∈ xs := by
  rw [List.mem_filterMap]
  constructor
  · rintro ⟨⟨call, a⟩, hx, hcreated⟩
    cases call with
    | createTestSet project name =>
      cases a with
      | error e => cases hcreated
      | ok made =>
        cases hcreated
        exact ⟨project, name, hx⟩
    | _ => cases hcreated
  · rintro ⟨project, name, hx⟩
    exact ⟨_, hx, rfl⟩

namespace Tidies

variable {project : Project} {xs ys : List Exchange} {shelf : σ → Shelf} {s : σ} {events : List Event}

theorem creation (h : Tidies project xs ys) {x : Exchange} (hx : x ∈ xs ++ ys) {p : Project}
    {name : TestSetName} (hcall : x.call = .createTestSet p name) : x ∈ xs ∧ p = project := by
  rcases List.mem_append.mp hx with hx | hx
  · exact ⟨hx, h.makes x hx p name hcall⟩
  · exact absurd hcall ((Exchange.uncreated (h.uncreating x hx)).2 p name)

theorem deletion (h : Tidies project xs ys) {x : Exchange} (hx : x ∈ xs ++ ys) {p : Project}
    {testSet : TestSet} (hcall : x.call = .deleteTestSet p testSet) :
    p = project ∧ testSet ∈ xs.filterMap Exchange.created? := by
  rcases List.mem_append.mp hx with hx | hx
  · have hnone := h.keeps x hx
    rw [hcall] at hnone
    cases hnone
  · exact h.deletes x hx p testSet hcall

theorem told_iff (h : Tidies project xs ys) (hevents : events.filterMap Event.exchange? = xs ++ ys)
    {p : Project} {id : ObjectId} :
    Told events p id ↔ p = project ∧ ∃ testSet ∈ xs.filterMap Exchange.created?, testSet.id = id := by
  constructor
  · rintro ⟨name, testSet, hmem, rfl⟩
    rw [← Event.mem_exchanges, hevents] at hmem
    obtain ⟨hx, hp⟩ := h.creation hmem rfl
    exact ⟨hp, testSet, Exchange.mem_created.mpr ⟨p, name, hx⟩, rfl⟩
  · rintro ⟨rfl, testSet, hmade, rfl⟩
    obtain ⟨p', name, hx⟩ := Exchange.mem_created.mp hmade
    obtain rfl := h.makes _ hx p' name rfl
    refine ⟨name, testSet, ?_, rfl⟩
    rw [← Event.mem_exchanges, hevents]
    exact List.mem_append_left _ hx

/-- Once the restore is through, the project has no test set of an id that was told. -/
theorem gone (h : Tidies project xs ys) {sh sh' : Shelf} (hpasses : Passes Exchange.Stocks sh (xs ++ ys) sh')
    {testSet : TestSet} (hmade : testSet ∈ xs.filterMap Exchange.created?) {m : Placed} (hm : m ∈ sh') :
    ¬ (m.project = project.id ∧ m.testSet.id = testSet.id) := by
  obtain ⟨sh₁, -, hys⟩ := passes_append.mp hpasses
  exact Shelf.deleted_of_passes hys h.uncreating (h.tidy testSet hmade) hm

/-- Where the lists are the same again, nothing was lost and no id given out twice. -/
theorem answered (h : Tidies project xs ys) (hkept : Kept env shelf Exchange.Stocks)
    (hgenuine : env.Genuine s events) (hevents : events.filterMap Event.exchange? = xs ++ ys)
    (hsame : ∀ p, (shelf (env.replay s events)).listed p = (shelf s).listed p) :
    Answered env shelf s events := by
  constructor
  -- a test set that nobody was told of is one more of its kind, and nothing takes one of that kind away
  · intro before call answer after hsplit p made hloses
    by_contra huntold
    obtain ⟨⟨name, e, hx⟩, hgains⟩ := hloses
    have hmem : ∀ x, x ∈ before.filterMap Event.exchange? ∨ x = ⟨call, answer⟩ ∨
        x ∈ after.filterMap Event.exchange? → x ∈ xs ++ ys := by
      intro x hx
      rw [← hevents, hsplit, List.filterMap_append, List.mem_append]
      exact hx.imp_right List.mem_cons.mpr
    have hcall : call = .createTestSet p name := congrArg Exchange.call hx
    obtain ⟨-, rfl⟩ := h.creation (hmem _ (.inr (.inl rfl))) hcall
    -- what is deleted was told, so this one is not
    have hspared : ∀ x ∈ xs ++ ys, ∀ p' testSet, x.call = .deleteTestSet p' testSet →
        ¬ (p.id = p'.id ∧ made.id = testSet.id) := by
      rintro x hx p' testSet hdelete ⟨-, hid⟩
      obtain ⟨-, hmade⟩ := h.deletion hx hdelete
      exact huntold ((h.told_iff hevents).mpr ⟨rfl, testSet, hmade, hid.symm⟩)
    rw [hsplit, Environment.genuine_append] at hgenuine
    obtain ⟨hbefore, -, hafter⟩ := hgenuine
    have hcount₁ : (shelf s).count ⟨p.id, made⟩ ≤ (shelf (env.replay s before)).count ⟨p.id, made⟩ :=
      Shelf.count_le_of_passes (hkept.passes hbefore) fun x hx => hspared x (hmem x (.inl hx))
    have hcount₂ := hgains.count_lt
    have hcount₃ : (shelf (env.replay s (before ++ [.asked call answer]))).count ⟨p.id, made⟩ ≤
        (shelf (env.replay s events)).count ⟨p.id, made⟩ := by
      have hreplay : env.replay s events =
          env.replay (env.next (env.replay s before) (.asked call answer)) after := by
        rw [hsplit, Environment.replay_append, Environment.replay_cons]
      rw [hreplay, Environment.replay_append]
      exact Shelf.count_le_of_passes (hkept.passes hafter) fun x hx => hspared x (hmem x (.inr (.inr hx)))
    have hcount : (shelf (env.replay s events)).count ⟨p.id, made⟩ = (shelf s).count ⟨p.id, made⟩ := by
      rw [← Shelf.count_listed, ← Shelf.count_listed, hsame]
    omega
  -- a former test set of an id that was told is deleted with the one that was made
  · intro p id htold former hformer hid
    obtain ⟨rfl, testSet, hmade, rfl⟩ := (h.told_iff hevents).mp htold
    have hpasses := hkept.passes hgenuine
    rw [hevents] at hpasses
    have hstill : ⟨p.id, former⟩ ∈ shelf (env.replay s events) := by
      rw [← Shelf.mem_listed, hsame]
      exact hformer
    exact h.gone hpasses hmade hstill ⟨rfl, hid⟩

/-- Where nothing was lost and no id given out twice, all test sets are what they were. -/
theorem same (h : Tidies project xs ys) (hkept : Kept env shelf Exchange.Stocks)
    (hgenuine : env.Genuine s events) (hevents : events.filterMap Event.exchange? = xs ++ ys)
    (hanswered : Answered env shelf s events) : shelf (env.replay s events) = shelf s := by
  have hpasses := hkept.passes hgenuine
  rw [hevents] at hpasses
  -- apart from the ids that were told nothing was made or deleted, and of those ids there is nothing,
  -- neither before nor after
  let ids := (xs.filterMap Exchange.created?).map (·.id)
  let keep (m : Placed) : Bool := ¬ (m.project = project.id ∧ m.testSet.id ∈ ids)
  have hkeep (m : Placed) (hm : ¬ (m.project = project.id ∧ m.testSet.id ∈ ids)) : keep m = true :=
    decide_eq_true hm
  have hdrop (m : Placed) (hproject : m.project = project.id) {testSet : TestSet}
      (hmade : testSet ∈ xs.filterMap Exchange.created?) (hid : testSet.id = m.testSet.id) :
      keep m = false :=
    decide_eq_false (not_not_intro ⟨hproject, List.mem_map.mpr ⟨testSet, hmade, hid⟩⟩)
  have hlost : env.Always shelf (fun x sh sh' => ∀ p made, x.Loses sh sh' p made →
      keep ⟨p.id, made⟩ = false) s events := by
    intro before call answer after hsplit p made hloses
    have htold := hanswered.lost before call answer after hsplit p made hloses
    obtain ⟨rfl, testSet, hmade, hid⟩ := (h.told_iff hevents).mp htold
    exact hdrop _ rfl hmade hid
  have hfilter : (shelf (env.replay s events)).filter keep = (shelf s).filter keep := by
    have halways := hkept.passes_always hgenuine hlost
    rw [hevents] at halways
    apply Shelf.filter_of_passes halways
    · intro x hx p name made hcall hcreated
      obtain ⟨hx, rfl⟩ := h.creation hx hcall
      exact hdrop _ rfl (List.mem_filterMap.mpr ⟨x, hx, hcreated⟩) rfl
    · intro x hx p testSet hcall m hproject hid
      obtain ⟨rfl, hmade⟩ := h.deletion hx hcall
      exact hdrop m hproject hmade hid.symm
  have hbefore : (shelf s).filter keep = shelf s := by
    apply List.filter_eq_self.mpr
    intro m hm
    apply hkeep m
    rintro ⟨hproject, hid⟩
    obtain ⟨testSet, hmade, hid⟩ := List.mem_map.mp hid
    have htold : Told events project m.testSet.id := (h.told_iff hevents).mpr ⟨rfl, testSet, hmade, hid⟩
    have hlisted : m.testSet ∈ (shelf s).listed project.id := by
      rw [Shelf.mem_listed, ← hproject]
      exact hm
    exact hanswered.unused project _ htold m.testSet hlisted rfl
  have hafter : (shelf (env.replay s events)).filter keep = shelf (env.replay s events) := by
    apply List.filter_eq_self.mpr
    intro m hm
    apply hkeep m
    rintro ⟨hproject, hid⟩
    obtain ⟨testSet, hmade, hid⟩ := List.mem_map.mp hid
    exact h.gone hpasses hmade hm ⟨hproject, hid.symm⟩
  rw [← hafter, hfilter, hbefore]

end Tidies

/-- When a run of test cases returns, it has told of an incomplete restore; or else the lists of test sets are
what they were just where every test set that was made bears an id that the run was told, and no former one
does. So a test set whose making was not answered stays. -/
theorem executeTestCases_keeps_lists_iff (env : Environment σ) (shelf : σ → Shelf)
    (hkept : Kept env shelf Exchange.Stocks) (ctx : Orchestration) (request : ExecutionRequest)
    (w w' : World σ) (r : Except OrchestrationError Outcome)
    (hrun : Session.run (Attempt.executeTestCases ctx request).run env w = (some r, w')) :
    ∃ events lines, w'.events = w.events ++ events ∧ w'.log.lines = w.log.lines ++ lines ∧
      ((∃ line ∈ lines, line.level = .error ∧ line.event = "restore.incomplete") ∨
        ((∀ project, (shelf w'.outside).listed project = (shelf w.outside).listed project) ↔
          Answered env shelf w.outside events)) := by
  have htraces : Traces env w ((Request.execution request).orchestrate ctx).run
    (Course env ctx (.execution request) w.outside w.interrupted) :=
      traces_orchestrate ctx (.execution request)
  obtain ⟨t, hl, hcourse⟩ := htraces
  have hrun' : Session.run ((Request.execution request).orchestrate ctx).run env w = (some r, w') := hrun
  rw [hrun'] at hl hcourse
  refine ⟨t.events, t.lines, hl.events, hl.lines, ?_⟩
  rcases hcourse.tidies with ⟨failures, hincomplete⟩ | ⟨project, xs, ys, hexchanges, htidies⟩
  · exact .inl ⟨_, hincomplete, rfl, rfl⟩
  · right
    rw [hl.outside]
    constructor
    · exact htidies.answered hkept hl.genuine hexchanges
    · intro hanswered project
      rw [htidies.same hkept hl.genuine hexchanges hanswered]

/-- The test sets of some contents. -/
def Contents.shelf (st : Contents) : Shelf := st.testSets.map fun s => ⟨s.project, s.testSet⟩

theorem Contents.listed_shelf (st : Contents) (project : ObjectId) :
    st.shelf.listed project = st.listed project := by
  simp only [Shelf.listed, shelf, listed, List.filter_map, List.map_map, Function.comp_def]

theorem Contents.shelf_remove (st : Contents) (project id : ObjectId) :
    (st.remove project id).shelf = st.shelf.without project id := by
  simp only [Shelf.without, shelf, remove, List.filter_map, Function.comp_def]

theorem Contents.shelf_extend (st : Contents) (id : ObjectId) (added : List Scenario) :
    (st.extend id added).shelf = st.shelf := by
  simp only [shelf, extend, List.map_map]
  apply List.map_congr_left
  intro s _
  dsimp only [Function.comp_apply]
  split <;> rfl

/-- An engine that keeps contents keeps test sets. -/
theorem Contents.stocks_of_takes {call : Call} {reply : call.Reply} {st st' : Contents}
    (h : Takes call reply st st') : call.Stocks reply st.shelf st'.shelf := by
  cases call with
  | createTestSet project name =>
    obtain ⟨hname, -, before, after, hparts, rfl⟩ := h
    refine ⟨hname, before.map fun s => ⟨s.project, s.testSet⟩, after.map fun s => ⟨s.project, s.testSet⟩, ?_, ?_⟩
    · rw [shelf, hparts, List.map_append]
    · rw [shelf, List.map_append, List.map_cons]
  | deleteTestSet project testSet =>
    obtain rfl := h
    exact st.shelf_remove project.id testSet.id
  | addScenarios testSet scenarios =>
    obtain ⟨added, -, rfl⟩ := h
    exact st.shelf_extend testSet.id added
  | testSets project =>
    obtain ⟨hread, rfl⟩ := h
    exact ⟨hread.trans (st'.listed_shelf project.id).symm, rfl⟩
  | setItemTestSet item testSet => rcases h with rfl | ⟨-, rfl⟩ <;> rfl
  | closeProject | setDataDir | setReportDir | setItemActive =>
    obtain rfl := h
    rfl
  | _ =>
    obtain ⟨-, rfl⟩ := h
    rfl

/-- The answer of an engine that may lose the reply to any call, the making of a test set too. -/
def Rig.answerOrLose (call : Call) (rig : Rig) : Except EngineError call.Reply × Rig :=
  match rig.mishaps.head?.join, rig.proceed.perform call with
  | none, some (reply, after) => (.ok reply, after)
  | some .lost, some (_, after) => (.error (.communication call.method "lost"), after)
  | _, _ => (.error (.application call.method "refused" []), rig.proceed)

def Rig.lossy : Environment Rig := { Rig.environment with answer := Rig.answerOrLose }

theorem Rig.lossy_kept : Kept Rig.lossy (·.contents.shelf) Exchange.Stocks where
  answers call rig := by
    change Exchange.Stocks ⟨call, (rig.answerOrLose call).1⟩ rig.contents.shelf
      (rig.answerOrLose call).2.contents.shelf
    have hsame : rig.proceed.contents = rig.contents := rfl
    unfold answerOrLose
    split
    · next reply after hmishap hperform =>
      have htakes := Contents.stocks_of_takes (takes_of_perform hperform)
      rwa [hsame] at htakes
    · next reply after hmishap hperform =>
      have htakes := Contents.stocks_of_takes (takes_of_perform hperform)
      rw [hsame] at htakes
      exact .inr ⟨reply, htakes⟩
    · exact .inl rfl
  pauses _ _ := rfl
  launches _ _ _ := rfl

/-- A run for the login that goes well, on an engine that may lose any reply. -/
theorem login_keeps_lists : ∃ r w',
    Session.run (Attempt.executeTestCases { rounds := 3 } loginRequest).run Rig.lossy
      { outside := Rig.small [] } = (some r, w') ∧
    ∃ events lines, w'.events = [] ++ events ∧ w'.log.lines = [] ++ lines ∧
      ((∃ line ∈ lines, line.level = .error ∧ line.event = "restore.incomplete") ∨
        ((∀ project, w'.outside.contents.shelf.listed project = (Rig.small []).contents.shelf.listed project) ↔
          Answered Rig.lossy (·.contents.shelf) (Rig.small []) events)) := by
  generalize hresult : Session.run (Attempt.executeTestCases { rounds := 3 } loginRequest).run Rig.lossy
    { outside := Rig.small [] } = result
  have hsome : result.1.isSome = true := by
    rw [← hresult]
    decide +kernel
  rcases result with ⟨_ | r, w'⟩
  · cases hsome
  · exact ⟨r, w', rfl, executeTestCases_keeps_lists_iff Rig.lossy (·.contents.shelf) Rig.lossy_kept
      { rounds := 3 } loginRequest _ w' r hresult⟩

/-- The reply to the making of a test set is lost: the run returns, tells of no incomplete restore, and leaves
the project with a test set more than it had. -/
theorem login_leaves_test_set :
    let rig := Rig.small (List.replicate 16 none ++ [some .lost])
    ∃ r w', Session.run (Attempt.executeTestCases { rounds := 3 } loginRequest).run Rig.lossy
        { outside := rig } = (some r, w') ∧
      (∀ line ∈ w'.log.lines, line.event ≠ "restore.incomplete") ∧
      (rig.contents.shelf.listed ⟨"p"⟩).length = 2 ∧ (w'.outside.contents.shelf.listed ⟨"p"⟩).length = 3 := by
  intro rig
  generalize hresult : Session.run (Attempt.executeTestCases { rounds := 3 } loginRequest).run Rig.lossy
    { outside := rig } = result
  have hsome : result.1.isSome = true := by
    rw [← hresult]
    decide +kernel
  have hlines : ∀ line ∈ result.2.log.lines, line.event ≠ "restore.incomplete" := by
    rw [← hresult]
    decide +kernel
  have hafter : (result.2.outside.contents.shelf.listed ⟨"p"⟩).length = 3 := by
    rw [← hresult]
    decide +kernel
  rcases result with ⟨_ | r, w'⟩
  · cases hsome
  · exact ⟨r, w', rfl, hlines, by decide +kernel, hafter⟩

end GuardedRun
