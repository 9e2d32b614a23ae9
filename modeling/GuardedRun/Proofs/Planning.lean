import GuardedRun.Proofs.Trace

/-! Planning. Whatever the engine answers, planning makes calls of some kinds only; and a plan that
is made is the one that the replies to these calls determine. -/

namespace GuardedRun

variable {σ ε α β : Type} {env : Environment σ} {w : World σ}

open Session MonadSession

namespace Call

/-- The calls that only look at a configuration or a project. -/
def isRead : Call → Bool
  | openProjects | configurations _ | testSets _ | scenarioTree _ | scenarios _ | items _
  | dataDir _ | reportDir _ | itemActive _ | itemTestSet _ => true
  | _ => false

def readsDirectory : Call → Bool
  | dataDir _ | reportDir _ => true
  | _ => false

/-- A read of something else than the directories. -/
def Looks (c : Call) : Prop := c.isRead = true ∧ c.readsDirectory = false

end Call

open Call (Looks)

/-- An attempt returns and makes calls of a kind only; where it succeeds, its calls and its value
stand in a relation. -/
def Asks (env : Environment σ) (w : World σ) (x : Attempt σ ε α) (K : Call → Prop)
    (P : List Exchange → α → Prop) : Prop :=
  Returns env w x.run fun t r => (∀ x ∈ t.exchanges, K x.call) ∧ ∀ a, r = .ok a → P t.exchanges a

namespace Asks

variable {K : Call → Prop}

theorem pure {a : α} {P : List Exchange → α → Prop} (h : P [] a) :
    Asks env w (pure a : Attempt σ ε α) K P := by
  apply Returns.pure
  refine ⟨nofun, fun b hb => ?_⟩
  cases hb
  exact h

theorem throw {e : ε} {P : List Exchange → α → Prop} :
    Asks env w (throw e : Attempt σ ε α) K P :=
  Returns.pure ⟨nofun, nofun⟩

theorem mono {x : Attempt σ ε α} {K' : Call → Prop} {P P' : List Exchange → α → Prop}
    (hx : Asks env w x K P) (hk : ∀ c, K c → K' c) (hp : ∀ xs a, P xs a → P' xs a) :
    Asks env w x K' P' :=
  Returns.mono hx fun _ _ h => ⟨fun x hx => hk _ (h.1 x hx), fun a ha => hp _ a (h.2 a ha)⟩

theorem bind {x : Attempt σ ε α} {f : α → Attempt σ ε β} {P : List Exchange → α → Prop}
    {P' : List Exchange → β → Prop} (hx : Asks env w x K P)
    (hf : ∀ xs a w₁, P xs a → Asks env w₁ (f a) K fun ys b => P' (xs ++ ys) b) :
    Asks env w (x >>= f) K P' := by
  apply Attempt.returns_bind hx
  · intro t e h
    exact ⟨h.1, nofun⟩
  · intro t a w₁ _ h
    obtain ⟨hk, hp⟩ := h
    apply Returns.mono (hf t.exchanges a w₁ (hp a rfl))
    intro t' r h
    rw [Trace.exchanges_append]
    exact ⟨fun x hx => (List.mem_append.mp hx).elim (hk x) (h.1 x), h.2⟩

theorem ask {call : Call} (hk : K call) :
    Asks env w (MonadSession.ask call : Attempt σ EngineError call.Reply) K fun xs a =>
      xs = [⟨call, .ok a⟩] := by
  apply Returns.ask
  intro raised
  rw [Trace.exchanges_told]
  refine ⟨by simpa using hk, fun a ha => ?_⟩
  rw [ha]

theorem note_bind {line : LogLine} {f : Unit → Attempt σ ε β} {P : List Exchange → β → Prop}
    (h : ∀ w₁, Asks env w₁ (f ()) K P) : Asks env w (note line >>= f) K P := by
  apply Attempt.returns_note_bind
  intro w₁
  apply Returns.mono (h w₁)
  intro t r hr
  rw [Trace.exchanges_append, Trace.exchanges_noted, List.nil_append]
  exact hr

theorem atStage {stage : Stage} {x : Attempt σ EngineError α} {P : List Exchange → α → Prop}
    (hx : Asks env w x K P) : Asks env w (atStage stage x) K P := by
  unfold Asks
  rw [Attempt.run_atStage]
  apply Returns.bind hx
  intro t r w₁ _ h
  obtain ⟨hk, hp⟩ := h
  apply Returns.pure
  rw [Trace.append_nil]
  refine ⟨hk, fun a ha => ?_⟩
  cases r with
  | error e => cases ha
  | ok b => cases ha; exact hp _ rfl

end Asks

/-- The calls of opening a project, whatever comes of it. -/
inductive Opening (path : Path) : List Exchange → Prop
  | listed (a) : Opening path [⟨.openProjects, a⟩]
  | opened (projects a) :
    Opening path [⟨.openProjects, .ok projects⟩, ⟨.openProject path, a⟩]

/-- The calls by which a project came to be open. -/
inductive Opened (path : Path) : List Exchange → Project → Prop
  | reused {projects project} (found : findProject path projects = some project) :
    Opened path [⟨.openProjects, .ok projects⟩] project
  | opened {projects} (missing : findProject path projects = none) (project) :
    Opened path [⟨.openProjects, .ok projects⟩, ⟨.openProject path, .ok project⟩] project

/-- The calls that found a configuration. -/
inductive Required (project : Project) (name : ConfigName) : List Exchange → Configuration → Prop
  | found {configurations configuration}
    (found : configurations.find? (·.name = name) = some configuration) :
    Required project name [⟨.configurations project, .ok configurations⟩] configuration

/-- The calls that found the requested scenarios. -/
inductive Resolved (project : Project) (testCases : NameSet .scenario) :
    List Exchange → List Scenario → Prop
  | nothing (empty : testCases.isEmpty = true) : Resolved project testCases [] []
  | found (tree) (some : testCases.isEmpty = false)
    (all : testCases.size ≤ (findScenarios tree testCases).length) :
    Resolved project testCases [⟨.scenarioTree project, .ok tree⟩] (findScenarios tree testCases)

/-- The calls that picked the active items. -/
inductive Picked : List Item → List Exchange → List Item → Prop
  | nil : Picked [] [] []
  | cons {item rest xs others} (active) (next : Picked rest xs others) :
    Picked (item :: rest) (⟨.itemActive item, .ok active⟩ :: xs)
      (if active then item :: others else others)

/-- The calls that told what an item runs as it is. -/
inductive Current (item : Item) : List Exchange → List Scenario → Prop
  | unset : Current item [⟨.itemTestSet item, .ok none⟩] []
  | set (testSet scenarios) : Current item
    [⟨.itemTestSet item, .ok (some testSet)⟩, ⟨.scenarios testSet, .ok scenarios⟩] scenarios

/-- What to do with an item of which some scenarios are kept. -/
def ItemAction.keeping (item : Item) (kept : List Scenario) : ItemAction :=
  if kept.isEmpty then .deactivate item else .filter item kept

/-- The calls that told what to do with each active item. -/
inductive Examined (requested : List Scenario) : List Item → List Exchange → List ItemAction → Prop
  | nil : Examined requested [] [] []
  | inactive {item rest xs actions} (next : Examined requested rest xs actions) :
    Examined requested (item :: rest) (⟨.itemActive item, .ok false⟩ :: xs) actions
  | active {item rest xs ys scenarios actions} (current : Current item xs scenarios)
    (next : Examined requested rest ys actions) :
    Examined requested (item :: rest) (⟨.itemActive item, .ok true⟩ :: (xs ++ ys))
      (.keeping item (Scenario.intersect scenarios requested) :: actions)

/-- The scenarios that a named test set contributes, if it covers the requested ones. -/
inductive Covered (inSet : List Scenario) (testCases : NameSet .scenario)
    (requested : List Scenario) : List Scenario → Prop
  | whole (empty : testCases.isEmpty = true) : Covered inSet testCases requested inSet
  | part (some : testCases.isEmpty = false)
    (all : requested.length ≤ (Scenario.intersect inSet requested).length) :
    Covered inSet testCases requested (Scenario.intersect inSet requested)

/-- The calls that a plan was made from. -/
inductive Devised (project : Project) (configuration : Configuration)
    (testCases : NameSet .scenario) (requested : List Scenario) :
    Option TestSetName → List Exchange → Plan → Prop
  | unfiltered (empty : testCases.isEmpty = true) :
    Devised project configuration testCases requested none [] .unfiltered
  | perItem {items xs actions} (some : testCases.isEmpty = false)
    (examined : Examined requested items xs actions) :
    Devised project configuration testCases requested none
      (⟨.items configuration, .ok items⟩ :: xs) (.perItem actions)
  | shared {name testSets testSet inSet scenarios items xs active}
    (found : testSets.find? (·.name = name) = some testSet)
    (covered : Covered inSet testCases requested scenarios) (filled : scenarios.isEmpty = false)
    (picked : Picked items xs active) :
    Devised project configuration testCases requested (some name)
      (⟨.testSets project, .ok testSets⟩ :: ⟨.scenarios testSet, .ok inSet⟩ ::
        ⟨.items configuration, .ok items⟩ :: xs) (.shared scenarios active)

namespace Attempt

theorem asks_findConfiguration (project : Project) (name : ConfigName) :
    Asks env w (findConfiguration project name) Looks fun xs found =>
      ∃ configurations, xs = [⟨.configurations project, .ok configurations⟩] ∧
        found = configurations.find? (·.name = name) := by
  unfold findConfiguration
  apply Asks.bind (.ask ⟨rfl, rfl⟩)
  intro xs configurations w₁ h
  obtain rfl := h
  exact .pure ⟨configurations, rfl, rfl⟩

theorem asks_requireConfiguration (project : Project) (name : ConfigName) :
    Asks env w (requireConfiguration project name) Looks (Required project name) := by
  unfold requireConfiguration
  apply Asks.bind (asks_findConfiguration project name).atStage
  intro xs found w₁ h
  obtain ⟨configurations, rfl, hfound⟩ := h
  cases found with
  | none =>
    apply Asks.note_bind
    intro w₂
    exact .throw
  | some configuration =>
    apply Asks.note_bind
    intro w₂
    exact .pure (.found hfound.symm)

theorem asks_findTestSet (project : Project) (name : TestSetName) :
    Asks env w (findTestSet project name) Looks fun xs found =>
      ∃ testSets, xs = [⟨.testSets project, .ok testSets⟩] ∧
        found = testSets.find? (·.name = name) := by
  unfold findTestSet
  apply Asks.bind (.ask ⟨rfl, rfl⟩)
  intro xs testSets w₁ h
  obtain rfl := h
  exact .pure ⟨testSets, rfl, rfl⟩

theorem asks_requireTestSet (project : Project) (name : TestSetName) :
    Asks env w (requireTestSet project name) Looks fun xs testSet =>
      ∃ testSets, xs = [⟨.testSets project, .ok testSets⟩] ∧
        testSets.find? (·.name = name) = some testSet := by
  unfold requireTestSet
  apply Asks.bind (asks_findTestSet project name).atStage
  intro xs found w₁ h
  obtain ⟨testSets, rfl, hfound⟩ := h
  cases found with
  | none =>
    apply Asks.note_bind
    intro w₂
    exact .throw
  | some testSet => exact .pure ⟨testSets, rfl, hfound.symm⟩

theorem asks_resolveRequested (project : Project) (testCases : NameSet .scenario) :
    Asks env w (resolveRequested project testCases) Looks (Resolved project testCases) := by
  unfold resolveRequested
  cases hempty : testCases.isEmpty with
  | true => exact .pure (.nothing hempty)
  | false =>
    apply Asks.bind (Asks.ask ⟨rfl, rfl⟩).atStage
    intro xs tree w₁ h
    obtain rfl := h
    by_cases hall : (findScenarios tree testCases).length < testCases.size
    · rw [if_pos hall]
      apply Asks.note_bind
      intro w₂
      exact .throw
    · rw [if_neg hall]
      apply Asks.note_bind
      intro w₂
      exact .pure (.found tree hempty (Nat.le_of_not_lt hall))

theorem asks_activeItems (items : List Item) :
    Asks env w (activeItems items : Attempt σ EngineError (List Item)) Looks (Picked items) := by
  induction items generalizing w with
  | nil => exact .pure .nil
  | cons item rest ih =>
    unfold activeItems
    apply Asks.bind (.ask ⟨rfl, rfl⟩)
    intro xs active w₁ h
    obtain rfl := h
    apply Asks.bind ih
    intro xs others w₂ hnext
    apply Asks.pure
    rw [List.append_nil]
    exact .cons active hnext

theorem asks_activeItemsOf (configuration : Configuration) :
    Asks env w (activeItemsOf configuration : Attempt σ EngineError (List Item)) Looks
      fun xs active => ∃ items ys, xs = ⟨.items configuration, .ok items⟩ :: ys ∧
        Picked items ys active := by
  unfold activeItemsOf
  apply Asks.bind (.ask ⟨rfl, rfl⟩)
  intro xs items w₁ h
  obtain rfl := h
  apply (asks_activeItems items).mono (fun _ hc => hc)
  intro ys active h
  exact ⟨items, ys, rfl, h⟩

theorem asks_currentScenarios (item : Item) :
    Asks env w (currentScenarios item : Attempt σ EngineError (List Scenario)) Looks
      (Current item) := by
  unfold currentScenarios
  apply Asks.bind (.ask ⟨rfl, rfl⟩)
  intro xs held w₁ h
  obtain rfl := h
  cases held with
  | none => exact .pure .unset
  | some testSet =>
    apply (Asks.ask ⟨rfl, rfl⟩).mono (fun _ hc => hc)
    intro ys scenarios h
    obtain rfl := h
    exact .set testSet scenarios

theorem asks_planItem (item : Item) (requested : List Scenario) :
    Asks env w (planItem item requested : Attempt σ EngineError ItemAction) Looks fun xs action =>
      ∃ scenarios, Current item xs scenarios ∧
        action = .keeping item (Scenario.intersect scenarios requested) := by
  unfold planItem
  apply Asks.bind (asks_currentScenarios item)
  intro xs scenarios w₁ hcurrent
  dsimp only
  by_cases hkept : (Scenario.intersect scenarios requested).isEmpty = true
  · rw [if_pos hkept]
    apply Asks.note_bind
    intro w₂
    apply Asks.pure
    rw [List.append_nil]
    exact ⟨scenarios, hcurrent, by rw [ItemAction.keeping, if_pos hkept]⟩
  · rw [if_neg hkept]
    apply Asks.note_bind
    intro w₂
    apply Asks.pure
    rw [List.append_nil]
    exact ⟨scenarios, hcurrent, by rw [ItemAction.keeping, if_neg hkept]⟩

theorem asks_planItems (requested : List Scenario) (items : List Item) :
    Asks env w (planItems requested items : Attempt σ EngineError (List ItemAction)) Looks
      (Examined requested items) := by
  induction items generalizing w with
  | nil => exact .pure .nil
  | cons item rest ih =>
    unfold planItems
    apply Asks.bind (.ask ⟨rfl, rfl⟩)
    intro xs active w₁ h
    obtain rfl := h
    cases active with
    | false =>
      rw [if_neg Bool.false_ne_true]
      apply ih.mono (fun _ hc => hc)
      intro ys actions hnext
      exact .inactive hnext
    | true =>
      rw [if_pos rfl]
      apply Asks.bind (asks_planItem item requested)
      intro xs action w₂ h
      obtain ⟨scenarios, hcurrent, rfl⟩ := h
      apply Asks.bind ih
      intro ys actions w₃ hnext
      apply Asks.pure
      rw [List.append_nil]
      have hactive := Examined.active hcurrent hnext
      exact hactive

theorem asks_planPerItem (project : Project) (configuration : Configuration)
    (testCases : NameSet .scenario) (requested : List Scenario) :
    Asks env w (planPerItem configuration testCases requested) Looks
      (Devised project configuration testCases requested none) := by
  unfold planPerItem
  cases hempty : testCases.isEmpty with
  | true => exact .pure (.unfiltered hempty)
  | false =>
    rw [if_neg Bool.false_ne_true]
    apply Asks.atStage
    apply Asks.bind (.ask ⟨rfl, rfl⟩)
    intro xs items w₁ h
    obtain rfl := h
    apply Asks.bind (asks_planItems requested items)
    intro ys actions w₂ hexamined
    apply Asks.pure
    rw [List.append_nil]
    exact .perItem hempty hexamined

theorem asks_coveredScenarios (name : TestSetName) (inSet : List Scenario)
    (testCases : NameSet .scenario) (requested : List Scenario) :
    Asks env w (coveredScenarios name inSet testCases requested) Looks fun xs scenarios =>
      xs = [] ∧ Covered inSet testCases requested scenarios := by
  unfold coveredScenarios
  cases hempty : testCases.isEmpty with
  | true => exact .pure ⟨rfl, .whole hempty⟩
  | false =>
    rw [if_neg Bool.false_ne_true]
    by_cases hall : (Scenario.intersect inSet requested).length < requested.length
    · dsimp only
      rw [if_pos hall]
      apply Asks.note_bind
      intro w₂
      exact .throw
    · dsimp only
      rw [if_neg hall]
      exact .pure ⟨rfl, .part hempty (Nat.le_of_not_lt hall)⟩

theorem asks_planShared (project : Project) (configuration : Configuration) (name : TestSetName)
    (testCases : NameSet .scenario) (requested : List Scenario) :
    Asks env w (planShared project configuration name testCases requested) Looks
      (Devised project configuration testCases requested (some name)) := by
  unfold planShared
  apply Asks.bind (asks_requireTestSet project name)
  intro xs testSet w₁ h
  obtain ⟨testSets, rfl, hfound⟩ := h
  apply Asks.bind (Asks.ask ⟨rfl, rfl⟩).atStage
  intro xs inSet w₂ h
  obtain rfl := h
  apply Asks.bind (asks_coveredScenarios name inSet testCases requested)
  intro xs scenarios w₃ h
  obtain ⟨rfl, hcovered⟩ := h
  cases hfilled : scenarios.isEmpty with
  | true =>
    rw [if_pos rfl]
    exact .throw
  | false =>
    rw [if_neg Bool.false_ne_true]
    apply Asks.bind (asks_activeItemsOf configuration).atStage
    intro xs active w₄ h
    obtain ⟨items, ys, rfl, hpicked⟩ := h
    apply Asks.note_bind
    intro w₅
    apply Asks.pure
    rw [List.append_nil]
    exact .shared hfound hcovered hfilled hpicked

theorem returns_failOpening (path : Path) (e : EngineError) :
    Returns env w (failOpening path e : Attempt σ OrchestrationError α).run fun t r =>
      t.exchanges = [] ∧ r = .error (.projectOpenFailed path.text e.message e.remoteLog) := by
  have hlines (lines : List String) {w : World σ} :
      Returns env w (lines.forM fun line => error "project.open_failed.log" line :
        Attempt σ OrchestrationError PUnit).run fun t r => t.exchanges = [] ∧ r = .ok () := by
    induction lines generalizing w with
    | nil => exact .pure ⟨rfl, rfl⟩
    | cons line rest ih =>
      apply returns_note_bind
      intro w₁
      exact ih
  unfold failOpening
  apply returns_note_bind
  intro w₁
  apply returns_bind (hlines e.remoteLog)
  · intro t e' h
    obtain ⟨-, hr⟩ := h
    cases hr
  · intro t u w₂ _ h
    obtain ⟨ht, -⟩ := h
    apply Returns.pure
    exact ⟨by simpa using ht, rfl⟩

/-- How making sure of a project may go. -/
inductive Ensuring (path : Path) : List Exchange → Except OrchestrationError Project → Prop
  | unlisted (e e') : Ensuring path [⟨.openProjects, .error e⟩] (.error e')
  | reused {listed project} (found : findProject path listed = some project) :
    Ensuring path [⟨.openProjects, .ok listed⟩] (.ok project)
  | refused {listed} (missing : findProject path listed = none) (e e') :
    Ensuring path [⟨.openProjects, .ok listed⟩, ⟨.openProject path, .error e⟩] (.error e')
  | opened {listed} (missing : findProject path listed = none) (project) :
    Ensuring path [⟨.openProjects, .ok listed⟩, ⟨.openProject path, .ok project⟩] (.ok project)

/-- Making sure of a project fails in one way only, whichever of its calls fails. -/
theorem returns_ensuring (path : Path) :
    Returns env w (ensureProjectOpen path).run fun t r =>
      Ensuring path t.exchanges r ∧
        ∀ e, r = .error e → ∃ reason log, e = .projectOpenFailed path.text reason log := by
  unfold ensureProjectOpen
  apply returns_attempt_bind
  intro raised a w₁
  cases a with
  | error e =>
    apply (returns_failOpening path e).mono
    intro t r h
    obtain ⟨ht, rfl⟩ := h
    refine ⟨by simpa [ht] using Ensuring.unlisted e _, fun e' he => ?_⟩
    cases he
    exact ⟨_, _, rfl⟩
  | ok listed =>
    cases hfound : findProject path listed with
    | some project =>
      dsimp only
      rw [hfound]
      apply returns_note_bind
      intro w₂
      apply Returns.pure
      exact ⟨by simpa using Ensuring.reused hfound, nofun⟩
    | none =>
      dsimp only
      rw [hfound]
      -- the project is not listed, so it is opened; there is no further try
      apply returns_attempt_bind
      intro raised' b w₂
      cases b with
      | error e =>
        apply (returns_failOpening path e).mono
        intro t r h
        obtain ⟨ht, rfl⟩ := h
        refine ⟨by simpa [ht] using Ensuring.refused hfound e _, fun e' he => ?_⟩
        cases he
        exact ⟨_, _, rfl⟩
      | ok project =>
        apply returns_note_bind
        intro w₃
        apply Returns.pure
        exact ⟨by simpa using Ensuring.opened hfound project, nofun⟩

theorem Ensuring.opening {path : Path} {xs : List Exchange} {r : Except OrchestrationError Project}
    (h : Ensuring path xs r) : Opening path xs := by
  cases h with
  | unlisted | reused => exact .listed _
  | refused | opened => exact .opened _ _

theorem Ensuring.opened_of_ok {path : Path} {xs : List Exchange} {project : Project}
    (h : Ensuring path xs (.ok project)) : Opened path xs project := by
  cases h with
  | reused found => exact .reused found
  | opened missing => exact .opened missing project

theorem returns_ensureProjectOpen (path : Path) :
    Returns env w (ensureProjectOpen path).run fun t r =>
      Opening path t.exchanges ∧ ∀ project, r = .ok project → Opened path t.exchanges project := by
  apply (returns_ensuring path).mono
  intro t r h
  obtain ⟨hensuring, -⟩ := h
  refine ⟨hensuring.opening, fun project hr => ?_⟩
  subst hr
  exact hensuring.opened_of_ok

theorem asks_temporaryNames (project : Project) (pattern : String) :
    Asks env w (temporaryNames project pattern) Looks fun xs names =>
      ∃ testSets, xs = [⟨.testSets project, .ok testSets⟩] ∧
        names = .of pattern (testSets.map (·.name.text)) := by
  unfold temporaryNames
  apply Asks.bind (Asks.ask ⟨rfl, rfl⟩).atStage
  intro xs testSets w₁ h
  obtain rfl := h
  exact .pure ⟨testSets, rfl, rfl⟩

end Attempt

end GuardedRun
