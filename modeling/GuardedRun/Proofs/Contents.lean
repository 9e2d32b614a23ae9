import GuardedRun.Proofs.Passage
import GuardedRun.Proofs.Protocol
import Mathlib.Data.List.Nodup

/-! What an engine keeps, and what its calls do to it. An engine here stores what it is told and reports
what it stores; any call may fail, and one that fails may have done its work all the same. -/

namespace GuardedRun

variable {σ : Type} {env : Environment σ}

/-- A test set as an engine keeps it. -/
structure KeptSet where
  project : ObjectId
  testSet : TestSet
  scenarios : List Scenario

/-- What an engine keeps, by ids. An item refers to a test set by its id, be there one or not. -/
structure Contents where
  projects : List Project
  configurations : ObjectId → List Configuration
  tree : ObjectId → List ScenarioNode
  items : ObjectId → List Item
  dataDir : ObjectId → Path
  reportDir : ObjectId → Path
  active : ObjectId → Bool
  held : ObjectId → Option ObjectId
  testSets : List KeptSet

/-- A table in which one entry is replaced. -/
def put {β : Type} (f : ObjectId → β) (id : ObjectId) (b : β) : ObjectId → β :=
  fun other => if other = id then b else f other

@[simp] theorem put_same {β : Type} (f : ObjectId → β) (id : ObjectId) (b : β) : put f id b id = b :=
  if_pos rfl

theorem put_other {β : Type} (f : ObjectId → β) {id other : ObjectId} (b : β) (h : other ≠ id) :
    put f id b other = f other :=
  if_neg h

namespace Contents

/-- The first test set of an id. -/
def set? (st : Contents) (id : ObjectId) : Option KeptSet := st.testSets.find? (·.testSet.id = id)

/-- The test set that an item refers to, if there is one. -/
def heldSet (st : Contents) (item : ObjectId) : Option KeptSet := (st.held item).bind st.set?

/-- The test set of an item as the engine reports it. -/
def reported (st : Contents) (item : ObjectId) : Option TestSet := (st.heldSet item).map (·.testSet)

/-- The scenarios that an item runs. -/
def chosen (st : Contents) (item : ObjectId) : List Scenario :=
  ((st.heldSet item).map (·.scenarios)).getD []

/-- The test sets of a project as the engine lists them. -/
def listed (st : Contents) (project : ObjectId) : List TestSet :=
  (st.testSets.filter (·.project = project)).map (·.testSet)

/-- No test set has the id, and no item refers to it. -/
structure Unused (st : Contents) (id : ObjectId) : Prop where
  unkept : ∀ s ∈ st.testSets, s.testSet.id ≠ id
  unreferenced : ∀ item, st.held item ≠ some id

/-- The contents after scenarios were added to a test set. -/
def extend (st : Contents) (id : ObjectId) (added : List Scenario) : Contents :=
  { st with testSets := st.testSets.map fun s =>
      if s.testSet.id = id then { s with scenarios := s.scenarios ++ added } else s }

/-- The contents without a test set of a project. -/
def remove (st : Contents) (project id : ObjectId) : Contents :=
  { st with testSets := st.testSets.filter fun s => ¬ (s.project = project ∧ s.testSet.id = id) }

/-- A successful read tells what is kept. -/
def Tells : (call : Call) → call.Reply → Contents → Prop
  | .openProjects, projects, st => projects = st.projects
  | .configurations project, configurations, st => configurations = st.configurations project.id
  | .testSets project, testSets, st => testSets = st.listed project.id
  | .scenarioTree project, tree, st => tree = st.tree project.id
  | .scenarios testSet, scenarios, st =>
    ∃ s, st.set? testSet.id = some s ∧ scenarios = s.scenarios
  | .items configuration, items, st => items = st.items configuration.id
  | .dataDir configuration, path, st => path = st.dataDir configuration.id
  | .reportDir configuration, path, st => path = st.reportDir configuration.id
  | .itemActive item, active, st => active = st.active item.id
  | .itemTestSet item, testSet, st => testSet = st.reported item.id
  | _, _, _ => True

/-- A call takes effect with a reply. A test set is made anywhere in the list, under an unused id;
that an item is to hold none may be ignored; starting, following and cancelling work changes nothing
here. -/
def Takes : (call : Call) → call.Reply → Contents → Contents → Prop
  | .openProject path, project, st, st' =>
    project.path = path ∧ st' = { st with projects := st.projects ++ [project] }
  | .closeProject project, _, st, st' =>
    st' = { st with projects := st.projects.filter (·.id ≠ project.id) }
  | .createTestSet project name, testSet, st, st' => testSet.name = name ∧ st.Unused testSet.id ∧
    ∃ before after, st.testSets = before ++ after ∧
      st' = { st with testSets := before ++ ⟨project.id, testSet, []⟩ :: after }
  | .deleteTestSet project testSet, _, st, st' => st' = st.remove project.id testSet.id
  | .addScenarios testSet scenarios, _, st, st' =>
    ∃ added, added.map (·.id) = scenarios.map (·.id) ∧ st' = st.extend testSet.id added
  | .setDataDir configuration path, _, st, st' =>
    st' = { st with dataDir := put st.dataDir configuration.id path }
  | .setReportDir configuration path, _, st, st' =>
    st' = { st with reportDir := put st.reportDir configuration.id path }
  | .setItemActive item active, _, st, st' =>
    st' = { st with active := put st.active item.id active }
  | .setItemTestSet item testSet, _, st, st' =>
    st' = { st with held := put st.held item.id (testSet.map (·.id)) } ∨ testSet = none ∧ st' = st
  | call, reply, st, st' => Tells call reply st ∧ st' = st

end Contents

/-- The calls that make test sets. -/
def Call.isCreation : Call → Bool
  | createTestSet _ _ => true
  | _ => false

open Contents

/-- What an exchange does to the contents. A call that fails has taken effect or not; but a test set
that could not be made is not there. -/
def Exchange.Serves (x : Exchange) (st st' : Contents) : Prop :=
  match x with
  | ⟨call, .ok reply⟩ => Takes call reply st st'
  | ⟨call, .error _⟩ => st' = st ∨ call.isCreation = false ∧ ∃ reply, Takes call reply st st'

namespace Exchange

variable {call : Call} {st st' : Contents}

theorem Serves.took {reply : call.Reply} (h : Serves ⟨call, .ok reply⟩ st st') :
    Takes call reply st st' :=
  h

/-- A call takes effect or does not, whatever is said of it. -/
theorem Serves.effect {a : Except EngineError call.Reply} (h : Serves ⟨call, a⟩ st st') :
    st' = st ∨ ∃ reply, Takes call reply st st' := by
  cases a with
  | ok reply => exact .inr ⟨reply, h⟩
  | error e => exact h.imp_right fun h => h.2

theorem Serves.uncreated {project : Project} {name : TestSetName} {e : EngineError}
    (h : Serves ⟨.createTestSet project name, .error e⟩ st st') : st' = st := by
  rcases h with h | ⟨hcreation, -⟩
  · exact h
  · cases hcreation

end Exchange

/-- An environment in which an engine keeps contents that only its calls change. -/
abbrev Faithful (env : Environment σ) (view : σ → Contents) : Prop := Kept env view Exchange.Serves

/-- Contents before and after some exchanges. -/
abbrev Evolves : Contents → List Exchange → Contents → Prop := Passes Exchange.Serves

/-- The contents that differ in the open projects at most. -/
def Contents.Besides (st st' : Contents) : Prop := ∃ projects, st' = { st with projects := projects }

theorem Contents.besides_refl (st : Contents) : st.Besides st := ⟨st.projects, rfl⟩

theorem Contents.Besides.trans {st st₁ st₂ : Contents} (h : st.Besides st₁) (h' : st₁.Besides st₂) :
    st.Besides st₂ := by
  obtain ⟨projects, rfl⟩ := h
  obtain ⟨projects', rfl⟩ := h'
  exact ⟨projects', rfl⟩

theorem takes_of_isRead {call : Call} (hc : call.isRead = true) {reply : call.Reply}
    {st st' : Contents} (h : Takes call reply st st') : Tells call reply st ∧ st' = st := by
  cases call <;> first | exact h | cases hc

theorem takes_of_isWork {call : Call} (hc : call.isWork = true) {reply : call.Reply}
    {st st' : Contents} (h : Takes call reply st st') : st' = st := by
  cases call <;> first | exact h.2 | cases hc

theorem Contents.Besides.tells {st st' : Contents} (h : st.Besides st') {call : Call}
    (hc : call ≠ .openProjects) {reply : call.Reply} (ht : Tells call reply st') :
    Tells call reply st := by
  obtain ⟨projects, rfl⟩ := h
  cases call <;> first | exact ht | exact absurd rfl hc

theorem Exchange.Serves.of_isWork {x : Exchange} {st st' : Contents} (h : x.Serves st st')
    (hx : x.call.isWork = true) : st' = st := by
  obtain ⟨call, a⟩ := x
  rcases h.effect with hsame | ⟨reply, htakes⟩
  · exact hsame
  · exact takes_of_isWork hx htakes

theorem Evolves.of_isWork {st st' : Contents} {xs : List Exchange} (h : Evolves st xs st')
    (hx : ∀ x ∈ xs, x.call.isWork = true) : st' = st := by
  induction h with
  | nil st => rfl
  | cons first rest ih =>
    rw [ih fun x h => hx x (List.mem_cons_of_mem _ h)]
    exact first.of_isWork (hx _ List.mem_cons_self)

/-- Looking at things and opening a project. -/
def Exchange.Plans (x : Exchange) : Prop := x.call.isRead = true ∨ ∃ path, x.call = .openProject path

theorem Exchange.Serves.of_plans {x : Exchange} {st st' : Contents} (h : x.Serves st st')
    (hx : x.Plans) : st.Besides st' := by
  obtain ⟨call, a⟩ := x
  rcases h.effect with hsame | ⟨reply, htakes⟩
  · rw [hsame]
    exact st.besides_refl
  · rcases hx with hread | ⟨path, rfl⟩
    · rw [(takes_of_isRead hread htakes).2]
      exact st.besides_refl
    · exact ⟨_, htakes.2⟩

/-- What some calls were told, of other things than the open projects, is what is kept. -/
def Contents.Agrees (st : Contents) (xs : List Exchange) : Prop :=
  ∀ call reply, ⟨call, .ok reply⟩ ∈ xs → call ≠ .openProjects → Tells call reply st

theorem Contents.Agrees.mono {st : Contents} {xs ys : List Exchange} (h : st.Agrees xs)
    (hsub : ys ⊆ xs) : st.Agrees ys :=
  fun call reply hmem hlist => h call reply (hsub hmem) hlist

/-- Planning leaves everything as it is, the open projects apart; and it is told what is kept. -/
theorem Evolves.of_plans {st st' : Contents} {xs : List Exchange} (h : Evolves st xs st')
    (hx : ∀ x ∈ xs, x.Plans) : st.Besides st' ∧ st.Agrees xs := by
  induction h with
  | nil st => exact ⟨st.besides_refl, nofun⟩
  | @cons st st₁ st' x xs first rest ih =>
    have hplans := hx x List.mem_cons_self
    have hstep := first.of_plans hplans
    obtain ⟨hbesides, hagrees⟩ := ih fun y h => hx y (List.mem_cons_of_mem _ h)
    refine ⟨hstep.trans hbesides, fun call reply hmem hlist => ?_⟩
    -- what is told later is told of contents that differ in the open projects only
    rcases List.mem_cons.mp hmem with rfl | hmem
    · rcases hplans with hread | ⟨path, rfl⟩
      · exact (takes_of_isRead hread first).1
      · trivial
    · exact hstep.tells hlist (hagrees call reply hmem hlist)

namespace Contents

variable {st : Contents}

/-- The items of a list that are active. -/
def activeOf (st : Contents) (items : List Item) : List Item := items.filter (st.active ·.id)

/-- The items of a configuration are told apart by their ids. -/
def Distinct (st : Contents) : Prop :=
  ∀ configuration, (st.items configuration).Pairwise fun i j => i.id ≠ j.id

theorem Distinct.eq_of_id {configuration : ObjectId} {i j : Item} (h : st.Distinct)
    (hi : i ∈ st.items configuration) (hj : j ∈ st.items configuration) (hid : i.id = j.id) :
    i = j :=
  List.inj_on_of_nodup_map (List.pairwise_map.mpr (h configuration)) hi hj hid

/-- What the active items of a list are to run of the requested scenarios. -/
def actions (st : Contents) (requested : List Scenario) (items : List Item) : List ItemAction :=
  (st.activeOf items).map fun item =>
    .keeping item (Scenario.intersect (st.chosen item.id) requested)

theorem items_actions (st : Contents) (requested : List Scenario) (items : List Item) :
    (st.actions requested items).map ItemAction.item = st.activeOf items := by
  have hitem : ItemAction.item ∘ (fun item : Item =>
      ItemAction.keeping item (Scenario.intersect (st.chosen item.id) requested)) = id := by
    funext item
    exact ItemAction.item_keeping _ _
  rw [actions, List.map_map, hitem, List.map_id]

theorem mem_activeOf {items : List Item} {item : Item} :
    item ∈ st.activeOf items ↔ item ∈ items ∧ st.active item.id = true :=
  List.mem_filter

theorem Agrees.picked {items active : List Item} {xs : List Exchange} (h : st.Agrees xs)
    (hp : Picked items xs active) : active = st.activeOf items := by
  induction hp with
  | nil => rfl
  | @cons item rest xs others active next ih =>
    have hactive : active = st.active item.id := h (.itemActive item) active List.mem_cons_self nofun
    have hrest := ih (h.mono (List.subset_cons_self _ _))
    rw [activeOf, List.filter_cons, ← hactive, hrest]
    rfl

theorem Agrees.current {item : Item} {scenarios : List Scenario} {xs : List Exchange}
    (h : st.Agrees xs) (hc : Current item xs scenarios) : scenarios = st.chosen item.id := by
  cases hc with
  | unset =>
    have hreported : none = st.reported item.id :=
      h (.itemTestSet item) none List.mem_cons_self nofun
    have hheld : st.heldSet item.id = none := Option.map_eq_none_iff.mp hreported.symm
    rw [chosen, hheld]
    rfl
  | set testSet scenarios =>
    have hreported : some testSet = st.reported item.id :=
      h (.itemTestSet item) (some testSet) List.mem_cons_self nofun
    have htells : Tells (.scenarios testSet) scenarios st :=
      h (.scenarios testSet) scenarios (List.mem_cons_of_mem _ List.mem_cons_self) nofun
    obtain ⟨kept, hkept, rfl⟩ := htells
    obtain ⟨held, hheld, rfl⟩ := Option.map_eq_some_iff.mp hreported.symm
    -- the set that the item refers to is the first one of its own id
    obtain ⟨id, hid, hset⟩ := Option.bind_eq_some_iff.mp hheld
    have hsame : held.testSet.id = id := by simpa using List.find?_some hset
    rw [hsame, hset] at hkept
    rw [chosen, hheld, Option.some.inj hkept]
    rfl

theorem Agrees.examined {requested : List Scenario} {items : List Item} {xs : List Exchange}
    {actions : List ItemAction} (h : st.Agrees xs) (he : Examined requested items xs actions) :
    actions = st.actions requested items := by
  induction he with
  | nil => rfl
  | @inactive item rest xs others next ih =>
    have hactive : false = st.active item.id :=
      h (.itemActive item) false List.mem_cons_self nofun
    rw [ih (h.mono (List.subset_cons_self _ _)), Contents.actions, Contents.actions, activeOf, activeOf,
      List.filter_cons, ← hactive]
    rfl
  | @active item rest xs ys scenarios others current next ih =>
    have hactive : true = st.active item.id := h (.itemActive item) true List.mem_cons_self nofun
    have hcurrent := (h.mono fun x hx =>
      List.mem_cons_of_mem _ (List.mem_append_left _ hx)).current current
    have hrest := ih (h.mono fun x hx => List.mem_cons_of_mem _ (List.mem_append_right _ hx))
    rw [hrest, hcurrent, Contents.actions, Contents.actions, activeOf, activeOf, List.filter_cons,
      ← hactive]
    rfl

end Contents

end GuardedRun
