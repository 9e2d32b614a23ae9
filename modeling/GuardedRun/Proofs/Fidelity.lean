import GuardedRun.Proofs.Departure

/-! Fidelity. At the moment a run is started, the configuration is what the request asks for, item by
item, whatever failed before or fails later. -/

namespace GuardedRun

variable {σ : Type} {env : Environment σ}

open Session Guard Contents

namespace Contents

/-- An item refers to what it referred to, and to none of the test sets that were made. -/
def Keeps (made : List ObjectId) (st st' : Contents) (item : ObjectId) : Prop :=
  st'.held item = st.held item ∧ ∀ id ∈ made, st'.held item ≠ some id

/-- Some items may differ, and some test sets are new; no other item or test set is. -/
structure Alters (touched made : List ObjectId) (st st' : Contents) : Prop where
  kept : (st'.testSets.filter fun s => s.testSet.id ∉ made) = st.testSets
  frame : ∀ id, id ∉ touched → st'.active id = st.active id ∧ Keeps made st st' id
  held : ∀ id, Keeps made st st' id ∨ ∃ m ∈ made, st'.held id = some m

/-- An item refers to a test set of its own, one that was made, with the ids of some scenarios. -/
def Owns (made : List ObjectId) (st : Contents) (item : ObjectId) (scenarios : List Scenario) : Prop :=
  ∃ s, st.held item = some s.testSet.id ∧ st.set? s.testSet.id = some s ∧ s.testSet.id ∈ made ∧
    s.scenarios.map (·.id) = scenarios.map (·.id) ∧
    ∀ other, other ≠ item → st.held other ≠ some s.testSet.id

variable {st st₁ st' : Contents} {touched touched₁ made made₁ : List ObjectId}

theorem Keeps.trans {item : ObjectId} (h : Keeps made st st₁ item) (h₁ : Keeps made₁ st₁ st' item) :
    Keeps (made ++ made₁) st st' item := by
  refine ⟨h₁.1.trans h.1, fun id hid => ?_⟩
  rcases List.mem_append.mp hid with hid | hid
  · rw [h₁.1]
    exact h.2 id hid
  · exact h₁.2 id hid

theorem Alters.refl (touched : List ObjectId) (st : Contents) : Alters touched [] st st where
  kept := List.filter_eq_self.mpr fun _ _ => rfl
  frame _ _ := ⟨rfl, rfl, nofun⟩
  held _ := .inl ⟨rfl, nofun⟩

theorem Alters.trans (h : Alters touched made st st₁) (h₁ : Alters touched₁ made₁ st₁ st') :
    Alters (touched ++ touched₁) (made ++ made₁) st st' where
  kept := by
    -- what was made neither first nor later was there
    have hboth (s : KeptSet) : decide (s.testSet.id ∉ made ++ made₁) =
        (decide (s.testSet.id ∉ made) && decide (s.testSet.id ∉ made₁)) := by
      simp
    calc st'.testSets.filter (fun s => s.testSet.id ∉ made ++ made₁)
        = (st'.testSets.filter fun s => s.testSet.id ∉ made₁).filter fun s => s.testSet.id ∉ made := by
          simp only [hboth, List.filter_filter]
      _ = st₁.testSets.filter fun s => s.testSet.id ∉ made := by rw [h₁.kept]
      _ = st.testSets := h.kept
  frame id hid := by
    have hnot : id ∉ touched ∧ id ∉ touched₁ := by simpa using hid
    obtain ⟨hactive, hkeeps⟩ := h.frame id hnot.1
    obtain ⟨hactive₁, hkeeps₁⟩ := h₁.frame id hnot.2
    exact ⟨hactive₁.trans hactive, hkeeps.trans hkeeps₁⟩
  held id := by
    rcases h₁.held id with hkeeps₁ | ⟨m, hm, hheld⟩
    · rcases h.held id with hkeeps | ⟨m, hm, hheld⟩
      · exact .inl (hkeeps.trans hkeeps₁)
      · exact .inr ⟨m, List.mem_append_left _ hm, hkeeps₁.1.trans hheld⟩
    · exact .inr ⟨m, List.mem_append_right _ hm, hheld⟩

theorem Alters.set?_eq (h : Alters touched made st st') {id : ObjectId} (hid : id ∉ made) :
    st'.set? id = st.set? id :=
  set?_of_kept h.kept hid

theorem Owns.later {item : ObjectId} {scenarios : List Scenario} (ho : Owns made st₁ item scenarios)
    (h : Alters touched made₁ st₁ st') (hi : item ∉ touched) :
    Owns (made ++ made₁) st' item scenarios := by
  obtain ⟨s, hheld, hset, hmade, hids, hown⟩ := ho
  obtain ⟨-, hsame, hnot⟩ := h.frame item hi
  have hheld' : st'.held item = some s.testSet.id := hsame.trans hheld
  have hold : s.testSet.id ∉ made₁ := fun hmem => hnot _ hmem hheld'
  refine ⟨s, hheld', (h.set?_eq hold).trans hset, List.mem_append_left _ hmade, hids, ?_⟩
  intro other hother heq
  -- another item refers to what it did before or to something new, and to this set in neither case
  rcases h.held other with hkeeps | ⟨m, hm, hnew⟩
  · exact hown other hother (hkeeps.1.symm.trans heq)
  · rw [heq] at hnew
    exact hold (Option.some.inj hnew ▸ hm)

end Contents

/-- An action is done: its item is off with what it had, or on as it was with what it keeps. -/
def ItemAction.Done (made : List ObjectId) (st st' : Contents) : ItemAction → Prop
  | deactivate item => st'.active item.id = false ∧ Keeps made st st' item.id
  | filter item scenarios =>
    st'.active item.id = st.active item.id ∧ Owns made st' item.id scenarios

namespace ItemAction

variable {st st₁ st' : Contents} {touched made made₁ : List ObjectId} {action : ItemAction}

theorem Done.later (hd : action.Done made st st₁) (h : Alters touched made₁ st₁ st')
    (hi : action.item.id ∉ touched) : action.Done (made ++ made₁) st st' := by
  cases action with
  | deactivate item =>
    obtain ⟨hactive, hkeeps⟩ := h.frame item.id hi
    exact ⟨hactive.trans hd.1, hd.2.trans hkeeps⟩
  | filter item scenarios =>
    obtain ⟨hactive, -⟩ := h.frame item.id hi
    exact ⟨hactive.trans hd.1, hd.2.later h hi⟩

theorem Done.earlier (hd : action.Done made₁ st₁ st') (h : Alters touched made st st₁)
    (hi : action.item.id ∉ touched) : action.Done (made ++ made₁) st st' := by
  cases action with
  | deactivate item =>
    obtain ⟨-, hkeeps⟩ := h.frame item.id hi
    exact ⟨hd.1, hkeeps.trans hd.2⟩
  | filter item scenarios =>
    obtain ⟨hactive, -⟩ := h.frame item.id hi
    obtain ⟨hsame, s, hheld, hset, hmade, hrest⟩ := hd
    exact ⟨hsame.trans hactive, s, hheld, hset, List.mem_append_right _ hmade, hrest⟩

end ItemAction

namespace Contents

variable {st : Contents} {before after : List KeptSet}

theorem extend_insert (hparts : st.testSets = before ++ after) {project : ObjectId}
    {testSet : TestSet} (hunused : st.Unused testSet.id) (added : List Scenario) :
    Contents.extend { st with testSets := before ++ ⟨project, testSet, []⟩ :: after } testSet.id added =
      { st with testSets := before ++ ⟨project, testSet, added⟩ :: after } := by
  have hrest (sets : List KeptSet) (hsub : sets ⊆ st.testSets) :
      (sets.map fun s => if s.testSet.id = testSet.id then
        { s with scenarios := s.scenarios ++ added } else s) = sets := by
    have hsame : ∀ s ∈ sets, (if s.testSet.id = testSet.id then
        { s with scenarios := s.scenarios ++ added } else s) = s := fun s hs =>
      if_neg (hunused.unkept s (hsub hs))
    rw [List.map_congr_left hsame, List.map_id']
  have hbefore := hrest before (by simp [hparts])
  have hafter := hrest after (by simp [hparts])
  rw [extend]
  simp only [List.map_append, List.map_cons, hbefore, hafter, if_true, List.nil_append]

theorem alters_insert (hparts : st.testSets = before ++ after) {s : KeptSet}
    (hunused : st.Unused s.testSet.id) :
    Alters [] [s.testSet.id] st { st with testSets := before ++ s :: after } where
  kept := by
    have hold : ∀ x ∈ st.testSets, decide (x.testSet.id ∉ [s.testSet.id]) = true := fun x hx => by
      simpa using hunused.unkept x hx
    calc (before ++ s :: after).filter (fun x => x.testSet.id ∉ [s.testSet.id])
        = (before ++ after).filter fun x => x.testSet.id ∉ [s.testSet.id] := by simp
      _ = st.testSets := by rw [← hparts, List.filter_eq_self.mpr hold]
  frame id _ := by
    refine ⟨rfl, rfl, fun m hm => ?_⟩
    rw [List.mem_singleton.mp hm]
    exact hunused.unreferenced id
  held id := by
    refine .inl ⟨rfl, fun m hm => ?_⟩
    rw [List.mem_singleton.mp hm]
    exact hunused.unreferenced id

theorem set?_insert (hparts : st.testSets = before ++ after) {s : KeptSet}
    (hunused : st.Unused s.testSet.id) :
    set? { st with testSets := before ++ s :: after } s.testSet.id = some s := by
  have hnone : before.find? (·.testSet.id = s.testSet.id) = none := by
    rw [List.find?_eq_none]
    intro x hx
    have hne := hunused.unkept x (hparts ▸ List.mem_append_left _ hx)
    simpa using hne
  rw [set?, List.find?_append, hnone, Option.none_or, List.find?_cons]
  simp

end Contents

variable {st st' : Contents} {xs : List Exchange}

theorem alters_of_created {project : Project} {name : TestSetName} {testSet : TestSet}
    {scenarios : List Scenario} (hev : Evolves st (created project name testSet scenarios) st') :
    Alters [] [testSet.id] st st' ∧ st.Unused testSet.id ∧
      st' = { st with testSets := st'.testSets } ∧ ∃ s, s.testSet = testSet ∧
        st'.set? testSet.id = some s ∧ s.scenarios.map (·.id) = scenarios.map (·.id) := by
  obtain ⟨st₁, hmade, hfill⟩ := passes_cons.mp hev
  obtain ⟨-, hunused, before, after, hparts, rfl⟩ := hmade.took
  -- the id is unused, so nothing else is filled
  obtain ⟨added, hids, rfl⟩ := (passes_singleton.mp hfill).took
  rw [extend_insert hparts hunused]
  have halters := alters_insert hparts (s := ⟨project.id, testSet, added⟩) hunused
  have hset := set?_insert hparts (s := ⟨project.id, testSet, added⟩) hunused
  exact ⟨halters, hunused, rfl, _, rfl, hset, hids⟩

theorem held_of_assigned {item : Item} {testSet : TestSet} (h : Assigned item testSet xs)
    (hev : Evolves st xs st') :
    st' = { st with held := put st.held item.id (some testSet.id) } := by
  have hput {st₁ : Contents} (h : Exchange.Serves ⟨.setItemTestSet item (some testSet), .ok ()⟩ st₁ st') :
      st' = { st₁ with held := put st₁.held item.id (some testSet.id) } := by
    rcases h.took with h | ⟨hnone, -⟩
    · exact h
    · cases hnone
  cases h with
  | first former =>
    obtain ⟨st₁, hread, hassign⟩ := passes_cons.mp hev
    obtain ⟨-, rfl⟩ : former = st.reported item.id ∧ st₁ = st := hread
    exact hput (passes_singleton.mp hassign)
  | next => exact hput (passes_singleton.mp hev)

theorem AssignedAll.held {testSet : TestSet} {items : List Item} (h : AssignedAll testSet items xs)
    (hev : Evolves st xs st') :
    st.Reheld (items.map (·.id)) st' ∧
      ∀ id, st.held id = some testSet.id ∨ id ∈ items.map (·.id) → st'.held id = some testSet.id := by
  induction h generalizing st with
  | nil =>
    obtain rfl := passes_nil.mp hev
    exact ⟨.refl _ _, fun id h => h.resolve_right List.not_mem_nil⟩
  | @cons item rest xs ys first others ih =>
    obtain ⟨st₁, hfirst, hrest⟩ := passes_append.mp hev
    have hst₁ := held_of_assigned first hfirst
    obtain ⟨hreheld, hheld⟩ := ih hrest
    have hfirst : st.Reheld [item.id] st₁ := by
      rw [hst₁]
      exact .put st item.id _
    refine ⟨hfirst.trans hreheld, fun id hid => hheld id ?_⟩
    by_cases hitem : id = item.id
    · left
      rw [hst₁, hitem]
      exact put_same _ _ _
    · refine hid.imp (fun hid => ?_) fun hid => (List.mem_cons.mp hid).resolve_left hitem
      rw [hfirst.held id fun h => hitem (List.mem_singleton.mp h)]
      exact hid

theorem alters_of_shared {project : Project} {name : TestSetName} {testSet : TestSet}
    {scenarios : List Scenario} {items : List Item} (h : AssignedAll testSet items xs)
    (hev : Evolves st (created project name testSet scenarios ++ xs) st') :
    Alters (items.map (·.id)) [testSet.id] st st' ∧ st'.active = st.active ∧
      (∀ item ∈ items, st'.held item.id = some testSet.id) ∧ ∃ s, s.testSet = testSet ∧
        st'.set? testSet.id = some s ∧ s.scenarios.map (·.id) = scenarios.map (·.id) := by
  obtain ⟨st₁, hcreated, hassigned⟩ := passes_append.mp hev
  obtain ⟨halters, hunused, hsame, s, rfl, hset, hids⟩ := alters_of_created hcreated
  obtain ⟨hreheld, hheld⟩ := h.held hassigned
  have hst' := hreheld.same
  have hactive : st'.active = st.active := by rw [hst', hsame]
  have hkeeps (id : ObjectId) (hid : id ∉ items.map (·.id)) : Keeps [s.testSet.id] st st' id := by
    have hother : st'.held id = st.held id := (hreheld.held id hid).trans (by rw [hsame])
    refine ⟨hother, fun m hm => ?_⟩
    rw [hother, List.mem_singleton.mp hm]
    exact hunused.unreferenced id
  refine ⟨⟨?_, fun id hid => ⟨congrFun hactive id, hkeeps id hid⟩, fun id => ?_⟩, hactive,
    fun item hitem => hheld item.id (.inr (List.mem_map_of_mem hitem)), s, rfl, ?_, hids⟩
  · rw [hst']
    exact halters.kept
  · by_cases hid : id ∈ items.map (·.id)
    · exact .inr ⟨_, List.mem_singleton.mpr rfl, hheld id (.inr hid)⟩
    · exact .inl (hkeeps id hid)
  · rw [hst']
    exact hset

/-- The test set of a filtered item is new, and its own. -/
theorem done_of_filter {project : Project} {name : TestSetName} {testSet : TestSet} {item : Item}
    {scenarios : List Scenario} (h : Assigned item testSet xs)
    (hev : Evolves st (created project name testSet scenarios ++ xs) st') :
    Alters [item.id] [testSet.id] st st' ∧
      (ItemAction.filter item scenarios).Done [testSet.id] st st' := by
  -- a filtered item shares its test set with no other one
  have hall := AssignedAll.cons h .nil
  rw [List.append_nil] at hall
  obtain ⟨halters, hactive, hheld, s, rfl, hset, hids⟩ := alters_of_shared hall hev
  have hmade : s.testSet.id ∈ [s.testSet.id] := List.mem_singleton.mpr rfl
  refine ⟨halters, congrFun hactive item.id, s, hheld item List.mem_cons_self, hset, hmade, hids, ?_⟩
  intro other hne
  have hkeeps := (halters.frame other fun hmem => hne (List.mem_singleton.mp hmem)).2
  exact hkeeps.2 _ hmade

theorem done_of_deactivate {item : Item}
    (hev : Evolves st [⟨.setItemActive item false, .ok ()⟩] st') :
    Alters [item.id] [] st st' ∧ (ItemAction.deactivate item).Done [] st st' := by
  have hst' : st' = { st with active := put st.active item.id false } :=
    (passes_singleton.mp hev).took
  subst hst'
  refine ⟨⟨List.filter_eq_self.mpr fun _ _ => rfl, fun id hid => ?_, fun _ => .inl ⟨rfl, nofun⟩⟩,
    put_same _ _ _, rfl, nofun⟩
  exact ⟨put_other _ _ fun heq => hid (List.mem_singleton.mpr heq), rfl, nofun⟩

/-- Actions about different items are all done, and none undoes another. -/
theorem Enacted.done {project : Project} {actions : List ItemAction}
    (h : Enacted project actions xs)
    (hdistinct : actions.Pairwise fun a b => a.item.id ≠ b.item.id) (hev : Evolves st xs st') :
    ∃ made, Alters (actions.map (·.item.id)) made st st' ∧ ∀ a ∈ actions, a.Done made st st' := by
  -- one action goes before the others
  have hstep {action : ItemAction} {rest : List ItemAction} {made₁ : List ObjectId} {st₁ st₂ : Contents}
      (hdistinct : (action :: rest).Pairwise fun a b => a.item.id ≠ b.item.id)
      (halters : Alters [action.item.id] made₁ st₁ st₂) (hdone : action.Done made₁ st₁ st₂)
      (hrest : ∃ made, Alters (rest.map (·.item.id)) made st₂ st' ∧ ∀ a ∈ rest, a.Done made st₂ st') :
      ∃ made, Alters ((action :: rest).map (·.item.id)) made st₁ st' ∧
        ∀ a ∈ action :: rest, a.Done made st₁ st' := by
    obtain ⟨made, halters', hdone'⟩ := hrest
    have hne := (List.pairwise_cons.mp hdistinct).1
    refine ⟨made₁ ++ made, halters.trans halters', fun a ha => ?_⟩
    rcases List.mem_cons.mp ha with rfl | ha
    · apply hdone.later halters'
      intro hmem
      obtain ⟨b, hb, heq⟩ := List.mem_map.mp hmem
      exact hne b hb heq.symm
    · apply (hdone' a ha).earlier halters
      intro hmem
      exact hne a ha (List.mem_singleton.mp hmem).symm
  induction h generalizing st with
  | nil =>
    obtain rfl := passes_nil.mp hev
    exact ⟨[], .refl _ _, nofun⟩
  | deactivate others ih =>
    obtain ⟨st₁, hfirst, hrest⟩ := passes_cons.mp hev
    obtain ⟨halters, hdone⟩ := done_of_deactivate (passes_singleton.mpr hfirst)
    exact hstep hdistinct halters hdone (ih (List.pairwise_cons.mp hdistinct).2 hrest)
  | filter name testSet first others ih =>
    obtain ⟨st₁, hfirst, hrest⟩ := passes_append.mp hev
    obtain ⟨halters, hdone⟩ := done_of_filter first hfirst
    exact hstep hdistinct halters hdone (ih (List.pairwise_cons.mp hdistinct).2 hrest)

/-- Before work is started all that was planned has been changed. -/
theorem Course.of_trigger {ctx : Orchestration} {request : Request} {s : σ} {flag : Bool} {t : Trace}
    {o : Option (Except OrchestrationError Outcome)} (h : Course env ctx request s flag t o)
    {before after : List Exchange} {x : Exchange} (hx : x.call.isTrigger = true)
    (hparts : t.exchanges = before ++ x :: after) :
    ∃ planning redirects changes task g, before = planning ++ (redirects ++ changes) ∧
      (∀ y ∈ planning, y.Plans) ∧ request.Prepared ctx planning task g ∧
      redirects = redirections g.configuration task.dataDir task.reportDir ∧
      (∀ y ∈ changes, y.call.isRedirect = false) ∧ task.Altered g.project changes ∧
      ∃ a, x = request.triggered g.configuration a := by
  obtain @⟨planning, waiting, restoring, task, g, redirection, alteration, r, _, plans, prepared,
    altering, departs, -, -⟩ := h.departs hx hparts
  have htrigger : ∃ a, x = request.triggered g.configuration a := by
    cases departs <;> exact ⟨_, rfl⟩
  rw [Trace.exchanges_append]
  exact ⟨planning, _, _, task, g, rfl, plans, prepared, altering.redirected nofun,
    fun y hy => (altering.changes y hy).not_redirect, altering.altered rfl, htrigger⟩

namespace Contents

/-- An item refers to the test set it referred to, and that is as it was. -/
structure SameSet (st st' : Contents) (item : ObjectId) : Prop where
  held : st'.held item = st.held item
  heldSet : st'.heldSet item = st.heldSet item

/-- Nothing about an item is different. -/
structure Unchanged (st st' : Contents) (item : ObjectId) : Prop extends SameSet st st' item where
  active : st'.active item = st.active item

/-- An item is active with a new test set, which has the ids of some scenarios in their order. -/
structure RunsNew (st st' : Contents) (item : ObjectId) (s : KeptSet)
    (scenarios : List Scenario) : Prop where
  active : st'.active item = true
  heldSet : st'.heldSet item = some s
  new : ∀ known ∈ st.testSets, known.testSet.id ≠ s.testSet.id
  ids : s.scenarios.map (·.id) = scenarios.map (·.id)

/-- The requested scenarios whose names occur among those that an item runs. -/
def wanted (st : Contents) (requested : List Scenario) (item : ObjectId) : List Scenario :=
  requested.filter fun s => s.name ∈ (st.chosen item).map (·.name)

/-- What is changed for a run in a configuration spares everything that the run has no use for. -/
structure Spares (c : Configuration) (st st' : Contents) : Prop where
  inactive : ∀ item, st.active item = false → Unchanged st st' item
  others : ∀ item, (∀ i ∈ st.items c.id, i.id ≠ item) → Unchanged st st' item
  testSets : st.testSets.Sublist st'.testSets
  known : ∀ id s, st.set? id = some s → st'.set? id = some s

variable {st st' : Contents} {touched made : List ObjectId}

theorem intersect_chosen (st : Contents) (requested : List Scenario) (item : ObjectId) :
    Scenario.intersect (st.chosen item) requested = st.wanted requested item := by
  apply List.filter_congr
  intro s hs
  rw [Bool.eq_iff_iff, Scenario.isNamedIn_iff, decide_eq_true_iff]

theorem Alters.sameSet (h : Alters touched made st st') {item : ObjectId}
    (hk : Keeps made st st' item) : SameSet st st' item := by
  refine ⟨hk.1, ?_⟩
  rw [heldSet, heldSet, ← hk.1]
  cases hheld : st'.held item with
  | none => rfl
  | some id =>
    have hid : id ∉ made := fun hmem => hk.2 id hmem hheld
    exact h.set?_eq hid

theorem Alters.unchanged (h : Alters touched made st st') {item : ObjectId} (hi : item ∉ touched) :
    Unchanged st st' item := by
  obtain ⟨hactive, hkeeps⟩ := h.frame item hi
  exact { h.sameSet hkeeps with active := hactive }

theorem Alters.new (h : Alters touched made st st') {s : KeptSet} (hs : s.testSet.id ∈ made) :
    ∀ known ∈ st.testSets, known.testSet.id ≠ s.testSet.id := by
  intro known hknown heq
  rw [← h.kept] at hknown
  have hnot := (List.mem_filter.mp hknown).2
  rw [heq] at hnot
  exact of_decide_eq_true hnot hs

theorem Alters.spares {c : Configuration} (h : Alters touched made st st')
    (ht : ∀ id ∈ touched, ∃ item ∈ st.activeOf (st.items c.id), item.id = id) :
    Spares c st st' where
  inactive id hid := by
    apply h.unchanged
    intro hmem
    obtain ⟨item, hitem, rfl⟩ := ht id hmem
    rw [(mem_activeOf.mp hitem).2] at hid
    cases hid
  others id hid := by
    apply h.unchanged
    intro hmem
    obtain ⟨item, hitem, heq⟩ := ht id hmem
    exact hid item (mem_activeOf.mp hitem).1 heq
  testSets := by
    rw [← h.kept]
    exact List.filter_sublist
  known id s hset := by
    have hid : id ∉ made := by
      intro hmem
      have hne := h.new (s := s) (by rwa [set?_id hset])
      exact hne s (List.mem_of_find?_eq_some hset) rfl
    rw [h.set?_eq hid, hset]

end Contents

/-- The requested scenarios as they stand in the project's tree. -/
def ExecutionRequest.requested (request : ExecutionRequest) (project : Project) (st : Contents) :
    List Scenario :=
  findScenarios (st.tree project.id) request.testCases

/-- A configuration is what a request wants to run, item by item, seen from the contents before. -/
structure ExecutionRequest.Met (request : ExecutionRequest) (project : Project) (c : Configuration)
    (st st' : Contents) : Prop extends Spares c st st' where
  located : project.path.same request.project = true
  named : (st.configurations project.id).find? (·.name = request.configuration) = some c
  dataDir : st'.dataDir = put st.dataDir c.id request.dataDir
  reportDir : st'.reportDir = put st.reportDir c.id request.reportDir
  /-- Without a test set and test cases, everything is run as it is. -/
  unfiltered : request.testSet = none → request.testCases.isEmpty = true →
    (∀ item, Unchanged st st' item) ∧ st'.testSets = st.testSets
  /-- Without a test set, each item runs what is requested of its own one, or nothing. -/
  perItem : request.testSet = none → request.testCases.isEmpty = false →
    ∀ item ∈ st.activeOf (st.items c.id),
      if st.wanted (request.requested project st) item.id = [] then
        st'.active item.id = false ∧ SameSet st st' item.id
      else ∃ s, RunsNew st st' item.id s (st.wanted (request.requested project st) item.id) ∧
        ∀ other, other ≠ item.id → st'.held other ≠ some s.testSet.id
  /-- With a test set, all items run one new test set, of what is requested of the named one. -/
  shared : ∀ name, request.testSet = some name → ∃ testSet named s,
    (st.listed project.id).find? (·.name = name) = some testSet ∧
      st.set? testSet.id = some named ∧
      (st'.testSets.filter fun known => known.testSet.id ≠ s.testSet.id) = st.testSets ∧
      ∀ item ∈ st.activeOf (st.items c.id), RunsNew st st' item.id s
        (if request.testCases.isEmpty then named.scenarios else request.requested project st)

/-- A plan is put into effect: its actions are done, or its items share a new test set. -/
inductive Plan.Effected (made : List ObjectId) (st st' : Contents) : Plan → Prop
  | unfiltered (none : made = []) : Plan.Effected made st st' .unfiltered
  | perItem {actions} (done : ∀ a ∈ actions, a.Done made st st') :
    Plan.Effected made st st' (.perItem actions)
  | shared {scenarios items} (s : KeptSet) (one : made = [s.testSet.id])
    (active : st'.active = st.active) (set : st'.set? s.testSet.id = some s)
    (ids : s.scenarios.map (·.id) = scenarios.map (·.id))
    (held : ∀ item ∈ items, st'.held item.id = some s.testSet.id) :
    Plan.Effected made st st' (.shared scenarios items)

theorem Applied.effected {project : Project} {plan : Plan} (h : Applied project plan xs)
    (hdistinct : plan.items.Pairwise fun i j => i.id ≠ j.id) (hev : Evolves st xs st') :
    ∃ made, Alters (plan.items.map (·.id)) made st st' ∧ plan.Effected made st st' := by
  cases h with
  | unfiltered =>
    obtain rfl := passes_nil.mp hev
    exact ⟨[], .refl _ _, .unfiltered rfl⟩
  | perItem h =>
    rw [Plan.items, List.pairwise_map] at hdistinct
    obtain ⟨made, halters, hdone⟩ := h.done hdistinct hev
    rw [Plan.items, List.map_map]
    exact ⟨made, halters, .perItem hdone⟩
  | shared name testSet h =>
    obtain ⟨halters, hactive, hheld, s, rfl, hset, hids⟩ := alters_of_shared h hev
    exact ⟨[s.testSet.id], halters, .shared s rfl hactive hset hids hheld⟩

theorem Contents.Distinct.activeOf (h : st.Distinct) (configuration : ObjectId) :
    (st.activeOf (st.items configuration)).Pairwise fun i j => i.id ≠ j.id :=
  (h configuration).filter _

variable {projects : List Project} {dataDir reportDir : ObjectId → Path}
  {touched made : List ObjectId} {plan : Plan}

/-- To the items and test sets it makes no difference where the directories are. -/
theorem Contents.Alters.of_elsewhere (st : Contents) (h : Alters touched made
    { st with projects := projects, dataDir := dataDir, reportDir := reportDir } st') :
    Alters touched made st st' :=
  ⟨h.kept, h.frame, h.held⟩

theorem Plan.Effected.of_elsewhere (st : Contents) (h : plan.Effected made
    { st with projects := projects, dataDir := dataDir, reportDir := reportDir } st') :
    plan.Effected made st st' := by
  cases h with
  | unfiltered none => exact .unfiltered none
  | perItem done =>
    refine .perItem fun a ha => ?_
    have hdone := done a ha
    cases a <;> exact hdone
  | shared s one active set ids held => exact .shared s one active set ids held

theorem Contents.Owns.runsNew {item : ObjectId} {scenarios : List Scenario}
    (ho : Owns made st' item scenarios) (h : Alters touched made st st')
    (hactive : st'.active item = true) : ∃ s, RunsNew st st' item s scenarios ∧
      ∀ other, other ≠ item → st'.held other ≠ some s.testSet.id := by
  obtain ⟨s, hheld, hset, hmade, hids, hown⟩ := ho
  refine ⟨s, ⟨hactive, ?_, h.new hmade, hids⟩, hown⟩
  rw [heldSet, hheld, Option.bind_some, hset]

theorem Resolved.requested_eq {request : ExecutionRequest} {project : Project}
    {requested : List Scenario} (h : Resolved project request.testCases xs requested)
    (ha : st.Agrees xs) (hsome : request.testCases.isEmpty = false) :
    requested = request.requested project st := by
  cases h with
  | nothing empty =>
    rw [hsome] at empty
    cases empty
  | found tree some all =>
    have htree : tree = st.tree project.id := ha (.scenarioTree project) tree (by simp) nofun
    rw [htree]
    rfl

theorem Covered.eq {inSet requested scenarios : List Scenario} {testCases : NameSet .scenario}
    (h : Covered inSet testCases requested scenarios) :
    scenarios = if testCases.isEmpty then inSet else requested := by
  cases h with
  | whole empty => rw [if_pos empty]
  | part some all =>
    have hsub : (Scenario.intersect inSet requested).Sublist requested := List.filter_sublist
    rw [some, if_neg Bool.false_ne_true]
    exact hsub.eq_of_length_le all

section

variable {ctx : Orchestration} {request : ExecutionRequest} {project : Project} {c : Configuration}
  {requested : List Scenario}

theorem Plan.Effected.unfiltered_of (h : plan.Effected made st st')
    (halters : Alters (plan.items.map (·.id)) made st st')
    (hdevised : Devised project c request.testCases requested none xs plan)
    (hempty : request.testCases.isEmpty = true) :
    (∀ item, Unchanged st st' item) ∧ st'.testSets = st.testSets := by
  cases hdevised with
  | perItem some examined =>
    rw [hempty] at some
    cases some
  | unfiltered empty =>
    cases h with
    | unfiltered none =>
      subst none
      refine ⟨fun item => halters.unchanged List.not_mem_nil, ?_⟩
      have hall : (st'.testSets.filter fun s => s.testSet.id ∉ []) = st'.testSets :=
        List.filter_eq_self.mpr fun _ _ => decide_eq_true List.not_mem_nil
      rw [← halters.kept, hall]

theorem Plan.Effected.perItem_of (h : plan.Effected made st st')
    (halters : Alters touched made st st')
    (hdevised : Devised project c request.testCases requested none xs plan) (ha : st.Agrees xs)
    (hsome : request.testCases.isEmpty = false) (hr : requested = request.requested project st) :
    ∀ item ∈ st.activeOf (st.items c.id),
      if st.wanted (request.requested project st) item.id = [] then
        st'.active item.id = false ∧ SameSet st st' item.id
      else ∃ s, RunsNew st st' item.id s (st.wanted (request.requested project st) item.id) ∧
        ∀ other, other ≠ item.id → st'.held other ≠ some s.testSet.id := by
  intro item hitem
  cases hdevised with
  | unfiltered empty =>
    rw [hsome] at empty
    cases empty
  | @perItem items xs actions some examined =>
    have hactions := (ha.mono (List.subset_cons_self _ _)).examined examined
    have hitems : items = st.items c.id := ha (.items c) items List.mem_cons_self nofun
    cases h with
    | perItem done =>
      rw [hitems, hr] at hactions
      -- the item has an action of its own among those that are done
      have hmem : ItemAction.keeping item (st.wanted (request.requested project st) item.id) ∈
          actions := by
        rw [hactions, ← intersect_chosen]
        exact List.mem_map_of_mem hitem
      have hdone := done _ hmem
      generalize st.wanted (request.requested project st) item.id = wanted at hdone
      unfold ItemAction.keeping at hdone
      cases wanted with
      | nil =>
        rw [if_pos rfl]
        exact ⟨hdone.1, halters.sameSet hdone.2⟩
      | cons s rest =>
        rw [if_neg (List.cons_ne_nil _ _)]
        exact hdone.2.runsNew halters (hdone.1.trans (mem_activeOf.mp hitem).2)

theorem Plan.Effected.shared_of (h : plan.Effected made st st')
    (halters : Alters touched made st st') {name : TestSetName}
    (hdevised : Devised project c request.testCases requested (some name) xs plan)
    (ha : st.Agrees xs)
    (hr : request.testCases.isEmpty = false → requested = request.requested project st) :
    ∃ testSet named s, (st.listed project.id).find? (·.name = name) = some testSet ∧
      st.set? testSet.id = some named ∧
      (st'.testSets.filter fun known => known.testSet.id ≠ s.testSet.id) = st.testSets ∧
      ∀ item ∈ st.activeOf (st.items c.id), RunsNew st st' item.id s
        (if request.testCases.isEmpty then named.scenarios else request.requested project st) := by
  cases hdevised with
  | @shared name testSets testSet inSet scenarios items xs active found covered filled picked =>
    have hsets : testSets = st.listed project.id :=
      ha (.testSets project) testSets List.mem_cons_self nofun
    have htells : Tells (.scenarios testSet) inSet st :=
      ha (.scenarios testSet) inSet (List.mem_cons_of_mem _ List.mem_cons_self) nofun
    obtain ⟨named, hnamed, rfl⟩ := htells
    have hitems : items = st.items c.id :=
      ha (.items c) items (List.mem_cons_of_mem _ (List.mem_cons_of_mem _ List.mem_cons_self)) nofun
    have hactive := (ha.mono fun x hx =>
      List.mem_cons_of_mem _ (List.mem_cons_of_mem _ (List.mem_cons_of_mem _ hx))).picked picked
    have hscenarios : scenarios = if request.testCases.isEmpty then named.scenarios
        else request.requested project st := by
      rw [covered.eq]
      cases hempty : request.testCases.isEmpty with
      | true => rfl
      | false => exact hr hempty
    cases h with
    | shared s one same set ids held =>
      -- the listed items are the ones that the plan is about
      rw [hsets] at found
      refine ⟨testSet, named, s, found, hnamed, ?_, fun item hitem => ?_⟩
      · rw [← halters.kept, one]
        apply List.filter_congr
        intro known _
        simp
      · have hon := (mem_activeOf.mp hitem).2
        rw [← hitems, ← hactive] at hitem
        have hnew : s.testSet.id ∈ made := one ▸ List.mem_singleton.mpr rfl
        refine ⟨(congrFun same item.id).trans hon, ?_, halters.new hnew, ids.trans ?_⟩
        · rw [heldSet, held item hitem, Option.bind_some, set]
        · rw [hscenarios]

end

theorem Request.Planned.met {ctx : Orchestration} {request : ExecutionRequest} {project : Project}
    {c : Configuration} {names : TemporaryNames}
    (h : Planned ctx project c (.execution request) xs (.execution request plan names))
    (ha : st.Agrees xs) (hlocated : project.path.same request.project = true)
    (hnamed : (st.configurations project.id).find? (·.name = request.configuration) = some c)
    (hdata : st'.dataDir = put st.dataDir c.id request.dataDir)
    (hreport : st'.reportDir = put st.reportDir c.id request.reportDir)
    (halters : Alters (plan.items.map (·.id)) made st st') (heffected : plan.Effected made st st') :
    request.Met project c st st' := by
  have hactive : plan.items ⊆ st.activeOf (st.items c.id) := h.items_subset ha
  have htouched : ∀ id ∈ plan.items.map (·.id), ∃ item ∈ st.activeOf (st.items c.id),
      item.id = id := by
    intro id hid
    obtain ⟨item, hitem, heq⟩ := List.mem_map.mp hid
    exact ⟨item, hactive hitem, heq⟩
  have hspares := halters.spares htouched
  cases h with
  | @execution _ ys zs requested _ testSets resolved devised =>
    have hr := resolved.requested_eq (ha.mono (List.subset_append_left _ _))
    have ha' : st.Agrees zs := ha.mono fun x hx => by simp [hx]
    refine { hspares with
      located := hlocated, named := hnamed, dataDir := hdata, reportDir := hreport
      unfiltered := fun hnone hempty => ?_
      perItem := fun hnone hsome => ?_
      shared := fun name hname => ?_ }
    · rw [hnone] at devised
      exact heffected.unfiltered_of halters devised hempty
    · rw [hnone] at devised
      exact heffected.perItem_of halters devised ha' hsome (hr hsome)
    · rw [hname] at devised
      exact heffected.shared_of halters devised ha' hr

theorem takes_directories {call : Call} (hc : call.isRedirect = false) {reply : call.Reply}
    (h : Takes call reply st st') : st'.dataDir = st.dataDir ∧ st'.reportDir = st.reportDir := by
  cases call with
  | setDataDir | setReportDir => cases hc
  | openProject path =>
    rw [h.2]
    exact ⟨rfl, rfl⟩
  | createTestSet project name =>
    obtain ⟨-, -, before, after, -, rfl⟩ := h
    exact ⟨rfl, rfl⟩
  | addScenarios testSet scenarios =>
    obtain ⟨added, -, rfl⟩ := h
    exact ⟨rfl, rfl⟩
  | setItemTestSet item testSet =>
    rcases h with rfl | ⟨-, rfl⟩ <;> exact ⟨rfl, rfl⟩
  | closeProject | deleteTestSet | setItemActive =>
    cases h
    exact ⟨rfl, rfl⟩
  | _ =>
    rw [h.2]
    exact ⟨rfl, rfl⟩

theorem Evolves.directories (hev : Evolves st xs st') (hx : ∀ x ∈ xs, x.call.isRedirect = false) :
    st'.dataDir = st.dataDir ∧ st'.reportDir = st.reportDir := by
  induction hev with
  | nil st => exact ⟨rfl, rfl⟩
  | @cons st st₁ st' x xs first rest ih =>
    obtain ⟨hdata, hreport⟩ := ih fun y hy => hx y (List.mem_cons_of_mem _ hy)
    have hkind := hx x List.mem_cons_self
    have hstep : st₁.dataDir = st.dataDir ∧ st₁.reportDir = st.reportDir := by
      obtain ⟨call, a⟩ := x
      rcases first.effect with rfl | ⟨reply, htakes⟩
      · exact ⟨rfl, rfl⟩
      · exact takes_directories hkind htakes
    exact ⟨hdata.trans hstep.1, hreport.trans hstep.2⟩

theorem evolves_redirections {c : Configuration} {data report : Path}
    (hev : Evolves st (redirections c (some data) (some report)) st') :
    st' = { st with dataDir := put st.dataDir c.id data, reportDir := put st.reportDir c.id report } := by
  obtain ⟨st₁, hdata, hrest⟩ := passes_cons.mp hev
  have hreport := (passes_singleton.mp hrest).took
  rw [hreport, hdata.took]

theorem Opened.same {path : Path} {project : Project} (h : Opened path xs project)
    (hev : Evolves st xs st') : project.path.same path = true := by
  cases h with
  | reused found => simpa using List.find?_some found
  | opened missing project =>
    obtain ⟨st₁, -, hopen⟩ := passes_cons.mp hev
    obtain ⟨hpath, -⟩ := (passes_singleton.mp hopen).took
    rw [hpath, Path.same_refl]

theorem Required.named {name : ConfigName} {project : Project} {c : Configuration}
    (h : Required project name xs c) (ha : st.Agrees xs) :
    (st.configurations project.id).find? (·.name = name) = some c := by
  cases h with
  | @found configurations configuration found =>
    have hlist : configurations = st.configurations project.id :=
      ha (.configurations project) configurations List.mem_cons_self Call.noConfusion
    rw [← hlist]
    exact found

theorem Request.Planned.distinct {ctx : Orchestration} {request : Request} {project : Project}
    {c : Configuration} {task : Task} (h : Planned ctx project c request xs task) (ha : st.Agrees xs)
    (hdistinct : st.Distinct) : task.items.Pairwise fun i j => i.id ≠ j.id := by
  rcases h.items_eq ha with hitems | hitems
  · rw [hitems]
    exact .nil
  · rw [hitems]
    exact hdistinct.activeOf _

/-- What was planned and prepared, once the directories are redirected and the changes are made, is what
the request wants. -/
theorem Request.Prepared.met {ctx : Orchestration} {request : ExecutionRequest} {task : Task} {g : Guard}
    {changes : List Exchange} (h : Prepared ctx (.execution request) xs task g)
    (hdistinct : st.Distinct) (hplans : ∀ x ∈ xs, x.Plans) (hev : Evolves st xs st₁)
    (hredirected : Evolves st₁ (redirections g.configuration task.dataDir task.reportDir) st₂)
    (hchanges : ∀ x ∈ changes, x.call.isRedirect = false) (haltered : task.Altered g.project changes)
    (hchanged : Evolves st₂ changes st') : request.Met g.project g.configuration st st' := by
  obtain ⟨⟨projects, rfl⟩, hagrees⟩ := hev.of_plans hplans
  cases h with
  | @all xs ys zs project c task data report opened required planned =>
    obtain ⟨plan, names, rfl⟩ : ∃ plan names, task = .execution request plan names := by
      cases planned
      exact ⟨_, _, rfl⟩
    have happlied : Applied project plan changes := by
      cases haltered
      assumption
    obtain ⟨hdata, hreport⟩ := hchanged.directories hchanges
    obtain rfl := evolves_redirections hredirected
    have hlooked : st.Agrees ys := hagrees.mono fun x hx => by simp [hx]
    have hread : st.Agrees zs := hagrees.mono fun x hx => by simp [hx]
    obtain ⟨made, halters, heffected⟩ := happlied.effected (planned.distinct hread hdistinct) hchanged
    obtain ⟨st₃, hopening, -⟩ := passes_append.mp hev
    obtain ⟨st₄, hopened, -⟩ := passes_append.mp hopening
    exact planned.met hread (opened.same hopened) (required.named hlooked) hdata hreport
      (halters.of_elsewhere st) (heffected.of_elsewhere st)

def Event.isRun : Event → Bool
  | asked (.run _) _ => true
  | _ => false

theorem Event.isRun_iff {event : Event} :
    event.isRun = true ↔ ∃ c answer, event = .asked (.run c) answer := by
  constructor
  · intro h
    unfold isRun at h
    split at h
    · exact ⟨_, _, rfl⟩
    · cases h
  · intro ⟨c, answer, h⟩
    rw [h, isRun]

/-- At the moment a run is started, the configuration is what the request wants to run. -/
theorem executeTestCases_runs_met (env : Environment σ) (view : σ → Contents)
    (hfaithful : Faithful env view) (ctx : Orchestration) (request : ExecutionRequest) (w : World σ)
    (hdistinct : (view w.outside).Distinct) (c : Configuration) (answer : Except EngineError Execution)
    (before after : List Event)
    (hevents : (Session.run (Attempt.executeTestCases ctx request).run env w).2.events =
      w.events ++ (before ++ .asked (.run c) answer :: after)) :
    ∃ project, request.Met project c (view w.outside) (view (env.replay w.outside before)) := by
  have htraces : Traces env w ((Request.execution request).orchestrate ctx).run
    (Course env ctx (.execution request) w.outside w.interrupted) :=
      traces_orchestrate ctx (.execution request)
  obtain ⟨t, hcourse, hgenuine, hx⟩ := htraces.reached hevents
  obtain ⟨planning, redirects, changes, task, g, hbefore, hplans, hprepared, hredirects, hchanges,
    haltered, a, htrigger⟩ := hcourse.of_trigger rfl hx
  have hev := hfaithful.passes hgenuine
  rw [hbefore, hredirects] at hev
  obtain ⟨st₁, hplanned, hev⟩ := passes_append.mp hev
  obtain ⟨st₂, hredirected, hchanged⟩ := passes_append.mp hev
  have hc : c = g.configuration := by
    cases htrigger
    rfl
  rw [hc]
  exact ⟨g.project, hprepared.met hdistinct hplans hplanned hredirected hchanges haltered hchanged⟩

/-- On the small rig a run is started, for the login alone. -/
theorem login_runs_met : ∃ c answer before after,
    (Session.run (Attempt.executeTestCases { rounds := 3 } loginRequest).run Rig.environment
      { outside := Rig.small [] }).2.events = [] ++ (before ++ .asked (.run c) answer :: after) ∧
    ∃ project, loginRequest.Met project c (Rig.small []).contents
      (Rig.environment.replay (Rig.small []) before).contents := by
  have hany : (Session.run (Attempt.executeTestCases { rounds := 3 } loginRequest).run
      Rig.environment { outside := Rig.small [] }).2.events.any Event.isRun = true := by decide +kernel
  obtain ⟨event, hmem, hrun⟩ := List.any_eq_true.mp hany
  obtain ⟨before, after, hevents⟩ := List.append_of_mem hmem
  obtain ⟨c, answer, rfl⟩ := Event.isRun_iff.mp hrun
  exact ⟨c, answer, before, after, hevents, executeTestCases_runs_met Rig.environment Rig.contents
    Rig.faithful _ loginRequest { outside := Rig.small [] } (Rig.distinct_small []) c answer before
    after hevents⟩

end GuardedRun
