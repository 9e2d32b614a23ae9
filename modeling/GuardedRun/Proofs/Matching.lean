import GuardedRun.Proofs.Recovery
import GuardedRun.Proofs.Refusal
import GuardedRun.Proofs.TreeSearch

/-! When requested test cases are not found. The forest of the project is read first, and a named test
set only after every requested name was found in it; the first of the two that lacks a requested name
ends the planning, and nothing else ends an orchestration in this way. -/

namespace GuardedRun

variable {σ ε α β : Type} {env : Environment σ} {w : World σ}

open Session MonadSession

/-- A call that reads the forest of a project, its test sets or the contents of one. -/
def Call.lists : Call → Bool
  | scenarioTree _ | testSets _ | scenarios _ => true
  | _ => false

theorem Call.lists_of_isRedirect {c : Call} (h : c.isRedirect = true) : c.lists = false := by
  cases c <;> first | rfl | cases h

theorem Call.lists_of_isChange {c : Call} (h : c.isChange = true) : c.lists = false := by
  cases c <;> first | rfl | cases h

theorem Call.lists_of_isWork {c : Call} (h : c.isWork = true) : c.lists = false := by
  cases c <;> first | rfl | cases h

theorem Call.lists_of_isMutation {c : Call} (h : c.isMutation = true) : c.lists = false := by
  cases c <;> first | rfl | cases h

namespace Exchange

/-- The configurations that a project was said to have. -/
def configurations? : Exchange → Option (List Configuration)
  | ⟨.configurations _, .ok configurations⟩ => some configurations
  | _ => none

/-- The test sets that a project was said to have. -/
def testSets? : Exchange → Option (List TestSet)
  | ⟨.testSets _, .ok testSets⟩ => some testSets
  | _ => none

/-- The forest that was read of a project. -/
def tree? : Exchange → Option (List ScenarioNode)
  | ⟨.scenarioTree _, .ok tree⟩ => some tree
  | _ => none

/-- What was read of a test set of a name. -/
def contents? (name : TestSetName) : Exchange → Option (List Scenario)
  | ⟨.scenarios testSet, .ok inSet⟩ => if testSet.name = name then some inSet else none
  | _ => none

/-- Nothing of the forest or of test sets is read by the call. -/
def Unlisting (x : Exchange) : Prop :=
  x.tree? = none ∧ x.testSets? = none ∧ ∀ name, x.contents? name = none

theorem unlisting_of_call {x : Exchange} (h : x.call.lists = false) : x.Unlisting := by
  obtain ⟨call, a⟩ := x
  cases call <;> first | exact ⟨rfl, rfl, fun _ => rfl⟩ | cases h

theorem trees_of_unlisting {xs : List Exchange} (h : ∀ x ∈ xs, x.Unlisting) :
    xs.filterMap tree? = [] :=
  List.filterMap_eq_nil_iff.mpr fun x hx => (h x hx).1

theorem testSets_of_unlisting {xs : List Exchange} (h : ∀ x ∈ xs, x.Unlisting) :
    xs.filterMap testSets? = [] :=
  List.filterMap_eq_nil_iff.mpr fun x hx => (h x hx).2.1

theorem contents_of_unlisting {xs : List Exchange} (h : ∀ x ∈ xs, x.Unlisting) (name : TestSetName) :
    xs.filterMap (contents? name) = [] :=
  List.filterMap_eq_nil_iff.mpr fun x hx => (h x hx).2.2 name

/-- A test set that was found by a name and read gives its scenarios. -/
theorem contents_of_find {testSets : List TestSet} {testSet : TestSet} {named : TestSetName}
    (h : testSets.find? (·.name = named) = some testSet) (inSet : List Scenario) :
    contents? named ⟨.scenarios testSet, .ok inSet⟩ = some inSet :=
  if_pos (by simpa using List.find?_some h)

end Exchange

/-- Where an attempt fails, the calls before it and its own stand in a relation to its error. -/
def Fails (env : Environment σ) (w : World σ) (before : List Exchange) (x : Attempt σ ε α)
    (E : List Exchange → ε → Prop) : Prop :=
  Returns env w x.run fun t r => ∀ e, r = .error e → E (before ++ t.exchanges) e

namespace Fails

variable {E : List Exchange → ε → Prop} {before : List Exchange}

theorem pure (a : α) : Fails env w before (pure a : Attempt σ ε α) E := Returns.pure nofun

theorem throw {e : ε} (h : E before e) : Fails env w before (throw e : Attempt σ ε α) E := by
  refine Returns.pure fun e' he => ?_
  cases he
  rwa [Trace.exchanges_nil, List.append_nil]

/-- What comes after an attempt may rest on the calls that were made and on what they told. -/
theorem chain {x : Attempt σ ε α} {f : α → Attempt σ ε β} {P : List Exchange → α → Prop}
    (hx : Fails env w before x E)
    (hp : Returns env w x.run fun t r => ∀ a, r = .ok a → P t.exchanges a)
    (hf : ∀ xs a w₁, P xs a → Fails env w₁ (before ++ xs) (f a) E) :
    Fails env w before (x >>= f) E := by
  apply Attempt.returns_bind (Returns.and hx hp)
  · intro t e h e' he
    cases he
    exact h.1 e rfl
  · intro t a w₁ _ h
    apply Returns.mono (hf t.exchanges a w₁ (h.2 a rfl))
    intro t' r hr e he
    rw [Trace.exchanges_append, ← List.append_assoc]
    exact hr e he

theorem bind {x : Attempt σ ε α} {f : α → Attempt σ ε β} {K : Call → Prop}
    {P : List Exchange → α → Prop} (hx : Fails env w before x E) (hp : Asks env w x K P)
    (hf : ∀ xs a w₁, P xs a → Fails env w₁ (before ++ xs) (f a) E) :
    Fails env w before (x >>= f) E :=
  hx.chain (Returns.mono hp fun _ _ h => h.2) hf

theorem andThen {x : Attempt σ ε α} {f : α → Attempt σ ε β} (hx : Fails env w before x E)
    (hf : ∀ xs a w₁, Fails env w₁ (before ++ xs) (f a) E) : Fails env w before (x >>= f) E :=
  hx.chain (P := fun _ _ => True) (Returns.mono hx fun _ _ _ _ _ => trivial) fun xs a w₁ _ =>
    hf xs a w₁

theorem note_bind {line : LogLine} {f : Unit → Attempt σ ε β}
    (h : ∀ w₁, Fails env w₁ before (f ()) E) : Fails env w before (note line >>= f) E := by
  apply Attempt.returns_note_bind
  intro w₁
  apply Returns.mono (h w₁)
  intro t r hr e he
  rw [Trace.exchanges_append, Trace.exchanges_noted, List.nil_append]
  exact hr e he

end Fails

/-- One of the calls failed. -/
def Faulty (xs : List Exchange) : Prop := ∃ x ∈ xs, ¬ x.succeeded

theorem Faulty.later {ys : List Exchange} (h : Faulty ys) (xs : List Exchange) : Faulty (xs ++ ys) := by
  obtain ⟨x, hx, hfailed⟩ := h
  exact ⟨x, List.mem_append_right _ hx, hfailed⟩

/-- An attempt fails only if one of its calls does. -/
def Sound (env : Environment σ) (w : World σ) (x : Attempt σ EngineError α) : Prop :=
  Fails env w [] x fun xs _ => Faulty xs

namespace Sound

theorem pure (a : α) : Sound env w (Pure.pure a : Attempt σ EngineError α) := Fails.pure a

theorem ask (call : Call) :
    Sound env w (MonadSession.ask call : Attempt σ EngineError call.Reply) := by
  apply Returns.ask
  intro raised e he
  rw [Trace.exchanges_told, he]
  exact ⟨_, List.mem_singleton_self _, Bool.false_ne_true⟩

theorem bind {x : Attempt σ EngineError α} {f : α → Attempt σ EngineError β} (hx : Sound env w x)
    (hf : ∀ a w₁, Sound env w₁ (f a)) : Sound env w (x >>= f) :=
  Fails.andThen hx fun _ a w₁ =>
    Returns.mono (hf a w₁) fun _ _ h e he => (h e he).later _

theorem note_bind {line : LogLine} {f : Unit → Attempt σ EngineError β}
    (hf : ∀ w₁, Sound env w₁ (f ())) : Sound env w (note line >>= f) :=
  Fails.note_bind hf

/-- Blamed on a stage, an attempt that only its calls make fail has an error of the stage. -/
theorem atStage {x : Attempt σ EngineError α} (hx : Sound env w x) {stage : Stage}
    {before : List Exchange} {E : List Exchange → OrchestrationError → Prop}
    (h : ∀ xs e, Faulty xs → E xs (.remoteFault stage e)) :
    Fails env w before (atStage stage x) E := by
  unfold Fails
  rw [Attempt.run_atStage]
  apply Returns.bind hx
  intro t r w₁ _ hr
  apply Returns.pure
  rw [Trace.append_nil]
  intro e he
  cases r with
  | ok a => cases he
  | error source =>
    cases he
    exact h _ source ((hr source rfl).later before)

end Sound

namespace Attempt

theorem sound_activeItems (items : List Item) :
    Sound env w (activeItems items : Attempt σ EngineError (List Item)) := by
  induction items generalizing w with
  | nil => exact .pure _
  | cons item rest ih => exact (Sound.ask _).bind fun _ _ => ih.bind fun _ _ => .pure _

theorem sound_currentScenarios (item : Item) :
    Sound env w (currentScenarios item : Attempt σ EngineError (List Scenario)) := by
  refine (Sound.ask _).bind fun held w₁ => ?_
  cases held with
  | none => exact .pure _
  | some testSet => exact .ask _

theorem sound_planItem (item : Item) (requested : List Scenario) :
    Sound env w (planItem item requested : Attempt σ EngineError ItemAction) := by
  refine (sound_currentScenarios item).bind fun scenarios w₁ => ?_
  dsimp only
  split
  · exact .note_bind fun _ => .pure _
  · exact .note_bind fun _ => .pure _

theorem sound_planItems (requested : List Scenario) (items : List Item) :
    Sound env w (planItems requested items : Attempt σ EngineError (List ItemAction)) := by
  induction items generalizing w with
  | nil => exact .pure _
  | cons item rest ih =>
    refine (Sound.ask _).bind fun active w₁ => ?_
    cases active with
    | false => exact ih
    | true => exact (sound_planItem item requested).bind fun _ _ => ih.bind fun _ _ => .pure _

end Attempt

namespace OrchestrationError

/-- The error says nothing of test cases that were not found. -/
def Plain (e : OrchestrationError) : Prop := ∀ n found missing, e ≠ partialScenarioMatch n found missing

theorem plain_of_not_ofPlanning {e : OrchestrationError} (h : e.isOfPlanning = false) : e.Plain := by
  rintro n found missing rfl
  cases h

end OrchestrationError

/-- The requested names that label a leaf are found; whatever is missing is missing of them all. -/
abbrev ExecutionRequest.found (request : ExecutionRequest) (tree : List ScenarioNode) : List Scenario :=
  findScenarios tree request.testCases

/-- How planning fails, and what it had read by then: a call failed, the configuration or the test set
was not among those listed, or the forest or the named test set has too little of what is requested. -/
inductive Balked (request : ExecutionRequest) (xs : List Exchange) : OrchestrationError → Prop
  | faulty {e} (faulty : Faulty xs) (plain : e.Plain) : Balked request xs e
  | unconfigured (configurations)
    (listed : (xs.filterMap Exchange.configurations?).head? = some configurations)
    (missing : ∀ c ∈ configurations, c.name ≠ request.configuration) :
    Balked request xs (.configNotFound request.configuration.text)
  | unnamed (named testSets) (asked : request.testSet = some named)
    (listed : (xs.filterMap Exchange.testSets?).head? = some testSets)
    (missing : ∀ s ∈ testSets, s.name ≠ named) : Balked request xs (.testSetNotFound named.text)
  | unlabelled (tree) (read : xs.filterMap Exchange.tree? = [tree])
    (short : (request.found tree).length < request.testCases.size) : Balked request xs
      (.partialScenarioMatch request.testCases.size (request.found tree).length
        (missingNames request.testCases (request.found tree)))
  | uncovered (tree named inSet) (read : xs.filterMap Exchange.tree? = [tree])
    (all : request.testCases.size ≤ (request.found tree).length)
    (asked : request.testSet = some named)
    (listed : xs.filterMap (Exchange.contents? named) = [inSet])
    (short : (Scenario.intersect inSet (request.found tree)).length < (request.found tree).length) :
    Balked request xs (.partialScenarioMatch (request.found tree).length
      (Scenario.intersect inSet (request.found tree)).length
      (missingNames request.testCases (Scenario.intersect inSet (request.found tree))))

/-- What planning had read of the requested test cases when it came through. -/
structure Fitted (request : ExecutionRequest) (xs : List Exchange) (tree : List ScenarioNode) :
    Prop where
  read : xs.filterMap Exchange.tree? = [tree]
  all : request.testCases.size ≤ (request.found tree).length
  covered : ∀ named, request.testSet = some named →
    ∃ inSet, xs.filterMap (Exchange.contents? named) = [inSet] ∧
      (request.found tree).length ≤ (Scenario.intersect inSet (request.found tree)).length

namespace Attempt

open OrchestrationError (Plain)

theorem plain_remoteFault (stage : Stage) (e : EngineError) :
    (OrchestrationError.remoteFault stage e).Plain := nofun

/-- What only its calls can make fail, fails as planning does. -/
theorem balked_atStage {request : ExecutionRequest} {stage : Stage} {x : Attempt σ EngineError α}
    (hx : Sound env w x) (before : List Exchange) :
    Fails env w before (atStage stage x) (Balked request) :=
  hx.atStage fun _ _ h => .faulty h (plain_remoteFault stage _)

theorem fails_ensureProjectOpen (request : ExecutionRequest) :
    Fails env w [] (ensureProjectOpen request.project) (Balked request) := by
  apply (returns_ensuring request.project).mono
  intro t r h e hr
  obtain ⟨hensuring, hfailure⟩ := h
  obtain ⟨reason, log, rfl⟩ := hfailure e hr
  subst hr
  refine .faulty ?_ nofun
  rw [List.nil_append]
  generalize t.exchanges = xs at hensuring
  -- a project could not be had, so the last call is one that failed
  cases hensuring with
  | unlisted e => exact ⟨_, List.mem_cons_self, Bool.false_ne_true⟩
  | refused missing e => exact ⟨_, List.mem_cons_of_mem _ List.mem_cons_self, Bool.false_ne_true⟩

theorem fails_requireConfiguration (request : ExecutionRequest) (project : Project)
    {before : List Exchange} (hbefore : before.filterMap Exchange.configurations? = []) :
    Fails env w before (requireConfiguration project request.configuration) (Balked request) := by
  have hfind : Sound env w (findConfiguration project request.configuration) :=
    (Sound.ask _).bind fun _ _ => .pure _
  unfold requireConfiguration
  refine (balked_atStage hfind before).bind
    (asks_findConfiguration project request.configuration).atStage fun xs found w₁ h => ?_
  obtain ⟨configurations, rfl, hfound⟩ := h
  cases found with
  | none =>
    have hmissing : ∀ c ∈ configurations, c.name ≠ request.configuration := by
      simpa using List.find?_eq_none.mp hfound.symm
    refine .note_bind fun _ => .throw (.unconfigured configurations ?_ hmissing)
    rw [List.filterMap_append, hbefore]
    rfl
  | some configuration => exact .note_bind fun _ => .pure _

theorem fails_requireTestSet (request : ExecutionRequest) (project : Project) (named : TestSetName)
    (hasked : request.testSet = some named) {before : List Exchange}
    (hbefore : before.filterMap Exchange.testSets? = []) :
    Fails env w before (requireTestSet project named) (Balked request) := by
  have hfind : Sound env w (findTestSet project named) := (Sound.ask _).bind fun _ _ => .pure _
  unfold requireTestSet
  refine (balked_atStage hfind before).bind (asks_findTestSet project named).atStage
    fun xs found w₁ h => ?_
  obtain ⟨testSets, rfl, hfound⟩ := h
  cases found with
  | none =>
    have hmissing : ∀ s ∈ testSets, s.name ≠ named := by
      simpa using List.find?_eq_none.mp hfound.symm
    refine .note_bind fun _ => .throw (.unnamed named testSets hasked ?_ hmissing)
    rw [List.filterMap_append, hbefore]
    rfl
  | some testSet => exact .pure _

/-- A read of planning, with what it was answered. -/
theorem asks_read (call : Call) (hlooks : call.Looks) :
    Asks env w (atStage .resolve (MonadSession.ask call) :
      Attempt σ OrchestrationError call.Reply) Call.Looks fun xs reply =>
        xs = [⟨call, .ok reply⟩] :=
  (Asks.ask hlooks).atStage

theorem fails_resolveRequested (request : ExecutionRequest) (project : Project)
    {before : List Exchange} (hbefore : ∀ x ∈ before, x.Unlisting)
    (hsome : request.testCases.isEmpty = false) :
    Fails env w before (resolveRequested project request.testCases) (Balked request) := by
  unfold resolveRequested
  rw [hsome, if_neg Bool.false_ne_true]
  refine Fails.bind (balked_atStage (.ask _) before) (asks_read _ ⟨rfl, rfl⟩)
    fun xs tree w₁ hxs => ?_
  obtain rfl := hxs
  have hread : (before ++ ([⟨.scenarioTree project, .ok tree⟩] : List Exchange)).filterMap
      Exchange.tree? = [tree] := by
    rw [List.filterMap_append, Exchange.trees_of_unlisting hbefore]
    rfl
  by_cases hshort : (findScenarios tree request.testCases).length < request.testCases.size
  · rw [if_pos hshort]
    exact .note_bind fun _ => .throw (.unlabelled tree hread hshort)
  · rw [if_neg hshort]
    exact .note_bind fun _ => .pure _

theorem fails_planPerItem (request : ExecutionRequest) (configuration : Configuration)
    (requested : List Scenario) (before : List Exchange) :
    Fails env w before (planPerItem configuration request.testCases requested) (Balked request) := by
  unfold planPerItem
  cases request.testCases.isEmpty with
  | true => exact .pure _
  | false =>
    refine balked_atStage ?_ before
    exact (Sound.ask _).bind fun items w₁ => (sound_planItems requested items).bind fun _ _ => .pure _

/-- What is too little of a test set shows in the calls before. -/
theorem fails_coveredScenarios (request : ExecutionRequest) (named : TestSetName)
    (tree : List ScenarioNode) (inSet : List Scenario) {before : List Exchange}
    (hsome : request.testCases.isEmpty = false) (hasked : request.testSet = some named)
    (hread : before.filterMap Exchange.tree? = [tree])
    (hlisted : before.filterMap (Exchange.contents? named) = [inSet])
    (hall : request.testCases.size ≤ (request.found tree).length) :
    Fails env w before (coveredScenarios named inSet request.testCases (request.found tree))
      (Balked request) := by
  unfold coveredScenarios
  rw [hsome, if_neg Bool.false_ne_true]
  dsimp only
  by_cases hshort : (Scenario.intersect inSet (request.found tree)).length <
      (request.found tree).length
  · rw [if_pos hshort]
    exact .note_bind fun _ => .throw (.uncovered tree named inSet hread hall hasked hlisted hshort)
  · rw [if_neg hshort]
    exact .pure _

/-- The named test set is read once the forest has all that is requested, and then it alone decides. -/
theorem fails_planShared (request : ExecutionRequest) (project : Project)
    (configuration : Configuration) (named : TestSetName) (tree : List ScenarioNode)
    {before : List Exchange} (hsome : request.testCases.isEmpty = false)
    (hasked : request.testSet = some named) (hread : before.filterMap Exchange.tree? = [tree])
    (hunlisted : before.filterMap Exchange.testSets? = [])
    (hunread : before.filterMap (Exchange.contents? named) = [])
    (hall : request.testCases.size ≤ (request.found tree).length) :
    Fails env w before (planShared project configuration named request.testCases
      (request.found tree)) (Balked request) := by
  unfold planShared
  refine Fails.bind (fails_requireTestSet request project named hasked hunlisted)
    (asks_requireTestSet project named) fun xs testSet w₁ hfound => ?_
  obtain ⟨testSets, rfl, hfound⟩ := hfound
  refine Fails.bind (balked_atStage (.ask _) _) (asks_read _ ⟨rfl, rfl⟩) fun xs inSet w₂ hxs => ?_
  obtain rfl := hxs
  rw [List.append_assoc, List.singleton_append]
  have htree : (before ++ ([⟨.testSets project, .ok testSets⟩, ⟨.scenarios testSet, .ok inSet⟩] :
      List Exchange)).filterMap Exchange.tree? = [tree] := by
    rw [List.filterMap_append, hread]
    rfl
  have hlisted : (before ++ ([⟨.testSets project, .ok testSets⟩, ⟨.scenarios testSet, .ok inSet⟩] :
      List Exchange)).filterMap (Exchange.contents? named) = [inSet] := by
    rw [List.filterMap_append, hunread, List.filterMap_cons_none rfl,
      List.filterMap_cons_some (Exchange.contents_of_find hfound inSet)]
    rfl
  refine Fails.bind (fails_coveredScenarios request named tree inSet hsome hasked htree hlisted hall)
    (asks_coveredScenarios named inSet _ _) fun xs scenarios w₃ hxs => ?_
  obtain ⟨rfl, hcovered⟩ := hxs
  have hfilled : scenarios.isEmpty = false := by
    cases hcovered with
    | whole empty =>
      rw [hsome] at empty
      cases empty
    | part some all =>
      -- something is requested, so it cannot be that nothing is left to run
      have hsize : request.testCases.size ≠ 0 := by
        intro hnone
        rw [NameSet.isEmpty, List.length_eq_zero_iff.mp hnone] at hsome
        cases hsome
      rw [List.isEmpty_eq_false_iff, ← List.length_pos_iff]
      omega
  rw [hfilled, if_neg Bool.false_ne_true]
  have hitems : Sound env w₃ (activeItemsOf configuration) :=
    (Sound.ask _).bind fun items _ => sound_activeItems items
  refine (balked_atStage hitems _).andThen fun xs items w₄ => ?_
  exact .note_bind fun _ => .pure _

theorem fails_planExecution (request : ExecutionRequest) (project : Project)
    (configuration : Configuration) {before : List Exchange} (hbefore : ∀ x ∈ before, x.Unlisting)
    (hsome : request.testCases.isEmpty = false) :
    Fails env w before (planExecution project configuration request) (Balked request) := by
  unfold planExecution
  refine Fails.bind (fails_resolveRequested request project hbefore hsome)
    (asks_resolveRequested project request.testCases) fun xs requested w₁ hresolved => ?_
  cases hresolved with
  | nothing empty =>
    rw [hsome] at empty
    cases empty
  | found tree _ all =>
    cases hasked : request.testSet with
    | none => exact fails_planPerItem request configuration _ _
    | some named =>
      have hread : (before ++ ([⟨.scenarioTree project, .ok tree⟩] : List Exchange)).filterMap
          Exchange.tree? = [tree] := by
        rw [List.filterMap_append, Exchange.trees_of_unlisting hbefore]
        rfl
      have hunlisted : (before ++ ([⟨.scenarioTree project, .ok tree⟩] : List Exchange)).filterMap
          Exchange.testSets? = [] := by
        rw [List.filterMap_append, Exchange.testSets_of_unlisting hbefore]
        rfl
      have hunread : (before ++ ([⟨.scenarioTree project, .ok tree⟩] : List Exchange)).filterMap
          (Exchange.contents? named) = [] := by
        rw [List.filterMap_append, Exchange.contents_of_unlisting hbefore]
        rfl
      exact fails_planShared request project configuration named tree hsome hasked hread hunlisted
        hunread all

theorem fails_temporaryNames (request : ExecutionRequest) (project : Project) (pattern : String)
    (before : List Exchange) :
    Fails env w before (temporaryNames project pattern) (Balked request) :=
  (balked_atStage (.ask _) before).andThen fun _ _ _ => .pure _

end Attempt

theorem Opened.unlisting {path : Path} {xs : List Exchange} {project : Project}
    (h : Opened path xs project) : ∀ x ∈ xs, x.Unlisting := by
  cases h <;> simp [Exchange.Unlisting, Exchange.tree?, Exchange.testSets?, Exchange.contents?]

theorem Opened.configurations {path : Path} {xs : List Exchange} {project : Project}
    (h : Opened path xs project) : xs.filterMap Exchange.configurations? = [] := by
  cases h <;> rfl

theorem Required.unlisting {project : Project} {name : ConfigName} {xs : List Exchange}
    {configuration : Configuration} (h : Required project name xs configuration) :
    ∀ x ∈ xs, x.Unlisting := by
  cases h
  simp [Exchange.Unlisting, Exchange.tree?, Exchange.testSets?, Exchange.contents?]

theorem Picked.unlisting {items active : List Item} {xs : List Exchange}
    (h : Picked items xs active) : ∀ x ∈ xs, x.Unlisting := by
  induction h with
  | nil => exact nofun
  | cons active next ih => exact List.forall_mem_cons.mpr ⟨Exchange.unlisting_of_call rfl, ih⟩

/-- Looking at what the items run reads test sets, but not the forest. -/
theorem Examined.trees {requested : List Scenario} {items : List Item} {xs : List Exchange}
    {actions : List ItemAction} (h : Examined requested items xs actions) :
    xs.filterMap Exchange.tree? = [] := by
  induction h with
  | nil => rfl
  | inactive next ih => exact ih
  | active current next ih =>
    rw [List.filterMap_cons_none rfl, List.filterMap_append, ih, List.append_nil]
    cases current <;> rfl

theorem Devised.trees {project : Project} {configuration : Configuration}
    {testCases : NameSet .scenario} {requested : List Scenario} {name? : Option TestSetName}
    {xs : List Exchange} {plan : Plan}
    (h : Devised project configuration testCases requested name? xs plan) :
    xs.filterMap Exchange.tree? = [] := by
  cases h with
  | unfiltered empty => rfl
  | perItem some examined => exact examined.trees
  | shared found covered filled picked =>
    rw [List.filterMap_cons_none rfl, List.filterMap_cons_none rfl, List.filterMap_cons_none rfl]
    exact Exchange.trees_of_unlisting picked.unlisting

/-- A plan for a named test set was made once it was read, and had all that was requested. -/
theorem Devised.covers {project : Project} {configuration : Configuration}
    {testCases : NameSet .scenario} {requested : List Scenario} {named : TestSetName}
    {xs : List Exchange} {plan : Plan} (hsome : testCases.isEmpty = false)
    (h : Devised project configuration testCases requested (some named) xs plan) :
    ∃ inSet, xs.filterMap (Exchange.contents? named) = [inSet] ∧
      requested.length ≤ (Scenario.intersect inSet requested).length := by
  cases h with
  | @shared _ testSets testSet inSet scenarios items ys active found covered filled picked =>
    refine ⟨inSet, ?_, ?_⟩
    · rw [List.filterMap_cons_none rfl, List.filterMap_cons_some (Exchange.contents_of_find found _),
        List.filterMap_cons_none rfl, Exchange.contents_of_unlisting picked.unlisting]
    · cases covered with
      | whole empty =>
        rw [hsome] at empty
        cases empty
      | part _ all => exact all

namespace Request

variable {request : ExecutionRequest} {ctx : Orchestration}

theorem fails_survey (ctx : Orchestration) (request : ExecutionRequest) (project : Project)
    {before : List Exchange} (hbefore : ∀ x ∈ before, x.Unlisting)
    (hunread : before.filterMap Exchange.configurations? = [])
    (hsome : request.testCases.isEmpty = false) :
    Fails env w before ((execution request).survey ctx project) (Balked request) := by
  refine Fails.bind (Attempt.fails_requireConfiguration request project hunread)
    (Attempt.asks_requireConfiguration project request.configuration) fun xs c w₁ hrequired => ?_
  have hboth : ∀ x ∈ before ++ xs, x.Unlisting :=
    List.forall_mem_append.mpr ⟨hbefore, hrequired.unlisting⟩
  have hplan : Fails env w₁ (before ++ xs) ((execution request).plan ctx project c)
      (Balked request) :=
    (Attempt.fails_planExecution request project c hboth hsome).andThen fun ys plan w₂ =>
      (Attempt.fails_temporaryNames request project ctx.tempPattern _).andThen fun _ _ _ => .pure _
  exact hplan.andThen fun _ _ _ => .pure _

/-- Whatever planning fails with, its calls are to blame. -/
theorem fails_prepare (ctx : Orchestration) (request : ExecutionRequest)
    (hsome : request.testCases.isEmpty = false) :
    Fails env w [] ((execution request).prepare ctx) (Balked request) := by
  unfold prepare
  refine Fails.chain (Attempt.fails_ensureProjectOpen request)
    (Returns.mono (Attempt.returns_ensureProjectOpen request.project) fun _ _ h => h.2)
    fun xs project w₁ hopened => ?_
  refine (fails_survey ctx request project hopened.unlisting hopened.configurations hsome).andThen
    fun ys found w₂ => ?_
  have hguard : Sound env w₂ (Guard.start project found.1) :=
    (Sound.ask _).bind fun _ _ => (Sound.ask _).bind fun _ _ => .pure _
  exact (Attempt.balked_atStage hguard _).andThen fun _ _ _ => .pure _

/-- Planning that came through had found all that was requested. -/
theorem Prepared.fitted {xs : List Exchange} {task : Task} {g : Guard}
    (h : (execution request).Prepared ctx xs task g) (hsome : request.testCases.isEmpty = false) :
    ∃ tree, Fitted request xs tree := by
  cases h with
  | @all os qs zs project c _ data report opened required planned =>
    cases planned with
    | @execution _ ys us requested plan testSets resolved devised =>
      cases resolved with
      | nothing empty =>
        rw [hsome] at empty
        cases empty
      | found tree _ all =>
        have hread : (os ++ (qs ++ ([⟨.scenarioTree project, .ok tree⟩] ++
            (us ++ [⟨.testSets project, .ok testSets⟩]))) ++ [⟨.dataDir c, .ok data⟩,
            ⟨.reportDir c, .ok report⟩] : List Exchange).filterMap Exchange.tree? = [tree] := by
          simp only [List.filterMap_append, Exchange.trees_of_unlisting opened.unlisting,
            Exchange.trees_of_unlisting required.unlisting, devised.trees]
          rfl
        refine ⟨tree, hread, all, fun named hasked => ?_⟩
        rw [hasked] at devised
        obtain ⟨inSet, hlisted, hcovered⟩ := devised.covers hsome
        refine ⟨inSet, ?_, hcovered⟩
        simp only [List.filterMap_append, Exchange.contents_of_unlisting opened.unlisting,
          Exchange.contents_of_unlisting required.unlisting, hlisted]
        rfl

end Request

theorem Fitted.before {request : ExecutionRequest} {xs ys : List Exchange} {tree : List ScenarioNode}
    (h : Fitted request xs tree) (hys : ∀ y ∈ ys, y.Unlisting) : Fitted request (xs ++ ys) tree where
  read := by rw [List.filterMap_append, Exchange.trees_of_unlisting hys, List.append_nil, h.read]
  all := h.all
  covered named hasked := by
    obtain ⟨inSet, hlisted, hcovered⟩ := h.covered named hasked
    refine ⟨inSet, ?_, hcovered⟩
    rw [List.filterMap_append, Exchange.contents_of_unlisting hys, List.append_nil, hlisted]

/-- Once there is a guard, neither the forest nor the contents of a test set are read. -/
theorem Task.Region.unlisting {ctx : Orchestration} {task : Task} {g : Guard} {s : σ} {flag : Bool}
    {t : Trace} {o : Option (Except OrchestrationError Unit × Guard)}
    (h : Task.Region env ctx task g s flag t o) : ∀ x ∈ t.exchanges, x.Unlisting := by
  have hchanges {redirection alteration : Trace} {r : Except OrchestrationError Unit}
      (altering : Task.Altering task g redirection alteration r) :
      ∀ x ∈ (redirection ++ alteration).exchanges, x.Unlisting := by
    rw [Trace.exchanges_append]
    refine List.forall_mem_append.mpr ⟨fun x hx => ?_, fun x hx => ?_⟩
    · exact Exchange.unlisting_of_call (Call.lists_of_isRedirect (altering.redirects x hx))
    · exact Exchange.unlisting_of_call (Call.lists_of_isChange (altering.change_kinds x hx))
  cases h with
  | failed redirection alteration e altering => exact hchanges altering
  | worked redirection alteration labour o altering labours =>
    rw [Trace.exchanges_append]
    refine List.forall_mem_append.mpr ⟨hchanges altering, fun x hx => ?_⟩
    exact Exchange.unlisting_of_call (Call.lists_of_isWork (labours.working.isWork x hx))

theorem Guard.Restores.unlisting {g : Guard} {xs : List Exchange} {failures : List RestoreFailure}
    (h : g.Restores xs failures) : ∀ x ∈ xs, x.Unlisting := by
  intro x hx
  apply Exchange.unlisting_of_call
  rcases h.comprises.reads x hx with hmutation | ⟨item, hread⟩
  · exact Call.lists_of_isMutation hmutation
  · rw [hread]
    rfl

theorem Task.Region.not_ofPlanning {ctx : Orchestration} {task : Task} {g g' : Guard} {s : σ}
    {flag : Bool} {t : Trace} {e : OrchestrationError}
    (h : Task.Region env ctx task g s flag t (some (.error e, g'))) : e.isOfPlanning = false := by
  rcases h.of_error with ⟨redirection, alteration, -, altering⟩ | thwarted
  · exact (altering.blamed e rfl).not_ofPlanning
  · exact thwarted.not_ofPlanning

/-- How an orchestration with requested test cases ends: planning balks, or all was found and no error
of planning comes after. -/
inductive Compared (request : ExecutionRequest) (xs : List Exchange) :
    Option (Except OrchestrationError Outcome) → Prop
  | balked {e} (balked : Balked request xs e) : Compared request xs (some (.error e))
  | fitted {tree o} (fitted : Fitted request xs tree)
    (plain : ∀ e, o = some (.error e) → e.Plain) : Compared request xs o

theorem traces_compared (ctx : Orchestration) (request : ExecutionRequest)
    (hsome : request.testCases.isEmpty = false) :
    Traces env w (Attempt.executeTestCases ctx request).run fun t o =>
      Compared request t.exchanges o := by
  have hprepare : Returns env w ((Request.execution request).prepare ctx).run _ :=
    Returns.and (Request.returns_prepare ctx _) (Request.fails_prepare ctx request hsome)
  change Traces env w ((Request.execution request).orchestrate ctx).run _
  refine traces_parts hprepare (P := fun _ _ _ work o => (∀ x ∈ work.exchanges, x.Unlisting) ∧
      ∀ e g', o = some (.error e, g') → e.isOfPlanning = false)
    (Q := fun g t failures => g.Restoration t failures) ?_ (fun g w₂ => Guard.returns_restoration g)
    ?_ ?_ ?_
  · intro planning task g w₁ _ _
    apply (Task.traces_perform ctx task).mono
    intro t o hregion
    refine ⟨hregion.unlisting, fun e g' ho => ?_⟩
    rw [ho] at hregion
    exact hregion.not_ofPlanning
  · intro planning e h
    exact .balked (h.2 e rfl)
  · intro planning task g work h hwork
    obtain ⟨tree, hfitted⟩ := h.1.2.fitted hsome
    rw [Trace.exchanges_append]
    exact .fitted (hfitted.before hwork.1) nofun
  · intro planning task g work result g' restoration failures h hwork hrestored
    obtain ⟨tree, hfitted⟩ := h.1.2.fitted hsome
    obtain ⟨hunlisting, hplain⟩ := hwork
    simp only [Trace.exchanges_append, Trace.exchanges_noted, List.append_nil]
    refine .fitted ((hfitted.before (List.forall_mem_append.mpr
      ⟨hunlisting, hrestored.restores.unlisting⟩))) fun e he => ?_
    -- the restore hides a failure of the work or passes it on as it is
    apply OrchestrationError.plain_of_not_ofPlanning
    rcases concludeResult_error (Option.some.inj he) with hresult | ⟨steps, cause, rfl⟩
    · cases result with
      | ok u => cases hresult
      | error e' =>
        cases hresult
        exact hplain e g' rfl
    · rfl

namespace ExecutionRequest

variable {request : ExecutionRequest} {xs : List Exchange}

/-- The labels that a requested name is missing from: those of the forest, or once these have all that
is requested, those of the named test set. -/
inductive Consulted (request : ExecutionRequest) (xs : List Exchange) (tree : List ScenarioNode) :
    List ScenarioName → Prop
  | forest (lacking : ∃ name ∈ request.testCases, name ∉ ScenarioNode.labels tree) :
    Consulted request xs tree (ScenarioNode.labels tree)
  | testSet (named inSet) (all : ∀ name ∈ request.testCases, name ∈ ScenarioNode.labels tree)
    (asked : request.testSet = some named)
    (listed : xs.filterMap (Exchange.contents? named) = [inSet]) :
    Consulted request xs tree (inSet.map (·.name))

/-- What the request names is there: its configuration among the configurations that were first listed,
if any were, and likewise its test set. -/
structure Listed (request : ExecutionRequest) (xs : List Exchange) : Prop where
  configuration : ∀ configurations,
    (xs.filterMap Exchange.configurations?).head? = some configurations →
      ∃ c ∈ configurations, c.name = request.configuration
  testSet : ∀ named, request.testSet = some named → ∀ testSets,
    (xs.filterMap Exchange.testSets?).head? = some testSets → ∃ s ∈ testSets, s.name = named

/-- Test cases that were not found are reported just when some are missing, in full and in order. -/
structure Matched (request : ExecutionRequest) (xs : List Exchange)
    (o : Option (Except OrchestrationError Outcome)) : Prop where
  detected : (∀ x ∈ xs, x.succeeded) → request.Listed xs →
    ∃ tree, xs.filterMap Exchange.tree? = [tree] ∧
      (∀ named, request.testSet = some named →
        (∀ name ∈ request.testCases, name ∈ ScenarioNode.labels tree) →
          ∃ inSet, xs.filterMap (Exchange.contents? named) = [inSet]) ∧
      ((∃ n found missing, o = some (.error (.partialScenarioMatch n found missing))) ↔
        (∃ name ∈ request.testCases, name ∉ ScenarioNode.labels tree) ∨
          ∃ named inSet, request.testSet = some named ∧
            xs.filterMap (Exchange.contents? named) = [inSet] ∧
              ∃ name ∈ request.testCases, name ∉ inSet.map (·.name))
  reported : ∀ n found missing, o = some (.error (.partialScenarioMatch n found missing)) →
    n = request.testCases.size ∧ found < n ∧ found + missing.length = n ∧
      missing.Pairwise (· < ·) ∧ ∃ tree labels, xs.filterMap Exchange.tree? = [tree] ∧
        request.Consulted xs tree labels ∧ ∀ text, text ∈ missing ↔
          ∃ name ∈ request.testCases, name ∉ labels ∧ name.text = text

theorem picks_found (request : ExecutionRequest) (tree : List ScenarioNode) :
    request.testCases.Picks (ScenarioNode.labels tree) (request.found tree) :=
  NameSet.picks_findScenarios _ tree

theorem all_labelled {tree : List ScenarioNode}
    (h : request.testCases.size ≤ (request.found tree).length) :
    ∀ name ∈ request.testCases, name ∈ ScenarioNode.labels tree := by
  intro name hname
  by_contra hmissing
  have hlt := (request.picks_found tree).length_lt_iff.mpr ⟨name, hname, hmissing⟩
  omega

end ExecutionRequest

/-- What balks planning is reported as it is: the counts and names are those of the labels in which
something is missing. -/
theorem Balked.matched {request : ExecutionRequest} {xs : List Exchange} {e : OrchestrationError}
    (h : Balked request xs e) : request.Matched xs (some (.error e)) := by
  cases h with
  | faulty faulty plain =>
    obtain ⟨x, hx, hfailed⟩ := faulty
    refine ⟨fun hall => absurd (hall x hx) hfailed, fun n found missing he => ?_⟩
    exact absurd (Except.error.inj (Option.some.inj he)) (plain n found missing)
  | unconfigured configurations listed missing =>
    refine ⟨fun _ hlisted => ?_, nofun⟩
    obtain ⟨c, hc, hname⟩ := hlisted.configuration configurations listed
    exact absurd hname (missing c hc)
  | unnamed named testSets asked listed missing =>
    refine ⟨fun _ hlisted => ?_, nofun⟩
    obtain ⟨s, hs, hname⟩ := hlisted.testSet named asked testSets listed
    exact absurd hname (missing s hs)
  | unlabelled tree read short =>
    have hpicks := request.picks_found tree
    have hlacking := hpicks.length_lt_iff.mp short
    refine ⟨fun _ _ => ⟨tree, read, fun named _ hall => ?_, ?_⟩, fun n found missing he => ?_⟩
    · obtain ⟨name, hname, hmissing⟩ := hlacking
      exact absurd (hall name hname) hmissing
    · exact ⟨fun _ => .inl hlacking, fun _ => ⟨_, _, _, rfl⟩⟩
    · cases he
      exact ⟨rfl, short, hpicks.length_add_missing, NameSet.ascending_missing _ _, tree, _, read,
        .forest hlacking, hpicks.mem_missing_iff⟩
  | uncovered tree named inSet read all asked listed short =>
    have hall := ExecutionRequest.all_labelled all
    have hfound := (request.picks_found tree).length_add_missing
    have hpicks := (request.picks_found tree).intersect hall inSet
    have hsize : (request.found tree).length = request.testCases.size := by omega
    have hlacking := hpicks.length_lt_iff.mp (hsize ▸ short)
    refine ⟨fun _ _ => ⟨tree, read, fun other hother _ => ?_, ?_⟩, fun n found missing he => ?_⟩
    · obtain rfl : named = other := Option.some.inj (asked.symm.trans hother)
      exact ⟨inSet, listed⟩
    · exact ⟨fun _ => .inr ⟨named, inSet, asked, listed, hlacking⟩, fun _ => ⟨_, _, _, rfl⟩⟩
    · cases he
      refine ⟨hsize, short, ?_, NameSet.ascending_missing _ _, tree, _, read,
        .testSet named inSet hall asked listed, hpicks.mem_missing_iff⟩
      rw [hsize]
      exact hpicks.length_add_missing

/-- Where all was found, nothing requested is missing from what was read. -/
theorem Fitted.matched {request : ExecutionRequest} {xs : List Exchange} {tree : List ScenarioNode}
    {o : Option (Except OrchestrationError Outcome)} (h : Fitted request xs tree)
    (hplain : ∀ e, o = some (.error e) → e.Plain) : request.Matched xs o := by
  have hall := ExecutionRequest.all_labelled h.all
  refine ⟨fun _ _ => ⟨tree, h.read, fun named hasked _ => ?_, ?_⟩, fun n found missing he => ?_⟩
  · obtain ⟨inSet, hlisted, -⟩ := h.covered named hasked
    exact ⟨inSet, hlisted⟩
  · constructor
    · rintro ⟨n, found, missing, he⟩
      exact absurd rfl (hplain _ he n found missing)
    · rintro (⟨name, hname, hmissing⟩ | ⟨named, inSet, hasked, hlisted, hlacking⟩)
      · exact absurd (hall name hname) hmissing
      · obtain ⟨inSet', hlisted', hcovered⟩ := h.covered named hasked
        obtain rfl : inSet = inSet' := List.singleton_inj.mp (hlisted.symm.trans hlisted')
        have hshort := ((request.picks_found tree).intersect hall inSet).length_lt_iff.mpr hlacking
        have hsize := h.all
        omega
  · exact absurd rfl (hplain _ he n found missing)

/-- An execution of requested test cases, over any answers whatever. If every call succeeds and the
configuration and the named test set are among those listed, the forest is read, and it fails for want of
test cases just when a requested name labels no leaf of the forest or, with a test set named, no scenario
of that. Such a failure counts right, and lists in ascending order just the names that are missing. -/
theorem executeTestCases_matches (env : Environment σ) (ctx : Orchestration)
    (request : ExecutionRequest) (w : World σ) (hsome : request.testCases.isEmpty = false) :
    ∃ events, (Session.run (Attempt.executeTestCases ctx request).run env w).2.events =
        w.events ++ events ∧
      request.Matched (events.filterMap Event.exchange?)
        (Session.run (Attempt.executeTestCases ctx request).run env w).1 := by
  have htraces : Traces env w (Attempt.executeTestCases ctx request).run fun t o =>
    Compared request t.exchanges o := traces_compared ctx request hsome
  obtain ⟨t, hl, hcompared⟩ := htraces
  refine ⟨t.events, hl.events, ?_⟩
  generalize (Session.run (Attempt.executeTestCases ctx request).run env w).1 = o at hcompared
  cases hcompared with
  | balked balked => exact balked.matched
  | fitted fitted plain => exact fitted.matched plain

/-- What the request for a test case that the project does not have comes to, and the world after it. -/
def checkoutRun : Option (Except OrchestrationError Outcome) × World Rehearsal.Engine :=
  Session.run (Attempt.executeTestCases { rounds := 3 } checkoutRequest).run Rehearsal.environment
    { outside := Rehearsal.small }

theorem checkout_matches : checkoutRequest.testCases.isEmpty = false ∧
    checkoutRequest.Matched (checkoutRun.2.events.filterMap Event.exchange?) checkoutRun.1 ∧
    (∀ x ∈ checkoutRun.2.events.filterMap Event.exchange?, x.succeeded) ∧
    checkoutRequest.Listed (checkoutRun.2.events.filterMap Event.exchange?) ∧
    failure? checkoutRun.1 = some (.partialScenarioMatch 2 1 ["Checkout"]) := by
  have hsome : checkoutRequest.testCases.isEmpty = false := rfl
  obtain ⟨events, hevents, hmatched⟩ := executeTestCases_matches Rehearsal.environment { rounds := 3 }
    checkoutRequest { outside := Rehearsal.small } hsome
  have hsame : checkoutRun.2.events = events := hevents
  have hsucceeded : ((checkoutRun.2.events.filterMap Event.exchange?).all (·.answer.isOk)) = true := by
    decide +kernel
  have hlisted : ((checkoutRun.2.events.filterMap Event.exchange?).filterMap
      Exchange.configurations?).head? = some [⟨⟨"c"⟩, .nightly⟩] := by
    decide +kernel
  refine ⟨hsome, ?_, List.all_eq_true.mp hsucceeded, ⟨fun configurations h => ?_, nofun⟩, by decide +kernel⟩
  · rw [hsame]
    exact hmatched
  · obtain rfl := Option.some.inj (hlisted.symm.trans h)
    exact ⟨_, List.mem_cons_self, rfl⟩

end GuardedRun
