import GuardedRun.Proofs.Rig

/-! Recovery. Whatever fails, what a guard remembers bridges the contents of the engine and those at the
start; so a restore without a failure brings the latter back. -/

namespace GuardedRun

variable {σ : Type} {env : Environment σ}

open Session Guard Contents

namespace RestoreFailure

/-- The item whose test set is not the former one. -/
def unsettled? : RestoreFailure → Option Item
  | testSet item _ | stillAssigned item _ | unverified item _ | dangling item _ => some item
  | _ => none

end RestoreFailure

namespace Contents

variable {st st' : Contents}

/-- A test set is found in a part of a list as in the whole, where the part has all of its id. -/
theorem find?_filter_id (sets : List KeptSet) (p : KeptSet → Bool) {id : ObjectId}
    (h : ∀ s ∈ sets, s.testSet.id = id → p s = true) :
    (sets.filter p).find? (·.testSet.id = id) = sets.find? (·.testSet.id = id) := by
  induction sets with
  | nil => rfl
  | cons s rest ih =>
    have hrest := ih fun s hs => h s (List.mem_cons_of_mem _ hs)
    rw [List.filter_cons]
    by_cases hp : p s = true
    · rw [if_pos hp, List.find?_cons, List.find?_cons, hrest]
    · rw [if_neg hp, hrest, List.find?_cons]
      have hid : ¬ s.testSet.id = id := fun hid => hp (h s List.mem_cons_self hid)
      simp [hid]

theorem set?_id {id : ObjectId} {s : KeptSet} (h : st.set? id = some s) : s.testSet.id = id := by
  simpa using List.find?_some h

theorem set?_of_reported {item : ObjectId} {t : TestSet} (h : st.reported item = some t) :
    ∃ s, st.set? t.id = some s ∧ s.testSet = t := by
  obtain ⟨s, hheld, rfl⟩ := Option.map_eq_some_iff.mp h
  obtain ⟨id, -, hset⟩ := Option.bind_eq_some_iff.mp hheld
  have hid := set?_id hset
  rw [← hid] at hset
  exact ⟨s, hset, rfl⟩

theorem set?_of_kept {made : List ObjectId}
    (hkept : (st'.testSets.filter fun s => s.testSet.id ∉ made) = st.testSets) {id : ObjectId}
    (hid : id ∉ made) : st'.set? id = st.set? id := by
  rw [set?, set?, ← hkept, find?_filter_id]
  intro s _ hsame
  rw [hsame]
  exact decide_eq_true hid

/-- Test sets beside the former ones do not count for an item that refers to none of them. -/
theorem reported_of_kept {made : List ObjectId} {item : ObjectId}
    (hkept : (st'.testSets.filter fun s => s.testSet.id ∉ made) = st.testSets)
    (hheld : st'.held item = st.held item) (hnot : ∀ id ∈ made, st'.held item ≠ some id) :
    st'.reported item = st.reported item := by
  rw [reported, reported, heldSet, heldSet, ← hheld]
  cases hsome : st'.held item with
  | none => rfl
  | some id =>
    have hunmade : id ∉ made := fun hmem => hnot id hmem hsome
    rw [Option.bind_some, Option.bind_some, set?_of_kept hkept hunmade]

/-- The contents are the same to everybody who looks. -/
structure Same (st st' : Contents) : Prop where
  configurations : st'.configurations = st.configurations
  tree : st'.tree = st.tree
  items : st'.items = st.items
  dataDir : st'.dataDir = st.dataDir
  reportDir : st'.reportDir = st.reportDir
  active : st'.active = st.active
  reported : ∀ item, st'.reported item = st.reported item
  testSets : st'.testSets = st.testSets

/-- The contents are the same but for what some failures own up to. -/
structure Accounted (failures : List RestoreFailure) (st st' : Contents) : Prop where
  configurations : st'.configurations = st.configurations
  tree : st'.tree = st.tree
  items : st'.items = st.items
  dataDir : st'.dataDir = st.dataDir ∨ ∃ e, .dataDir e ∈ failures
  reportDir : st'.reportDir = st.reportDir ∨ ∃ e, .reportDir e ∈ failures
  active : ∀ id, st'.active id = st.active id ∨ ∃ item e, .activation item e ∈ failures ∧ item.id = id
  reported : ∀ id, st'.reported id = st.reported id ∨
    ∃ failure ∈ failures, ∃ item, failure.unsettled? = some item ∧ item.id = id
  testSets : ∃ made : List ObjectId, (st'.testSets.filter fun s => s.testSet.id ∉ made) = st.testSets ∧
    ∀ s ∈ st'.testSets, s.testSet.id ∈ made →
      ∃ set e, .deletion set e ∈ failures ∧ set.id = s.testSet.id

theorem Besides.same (h : st.Besides st') : st.Same st' := by
  obtain ⟨projects, rfl⟩ := h
  exact ⟨rfl, rfl, rfl, rfl, rfl, rfl, fun _ => rfl, rfl⟩

theorem Accounted.same (h : Accounted [] st st') : st.Same st' where
  configurations := h.configurations
  tree := h.tree
  items := h.items
  dataDir := h.dataDir.resolve_right nofun
  reportDir := h.reportDir.resolve_right nofun
  active := funext fun id => (h.active id).resolve_right nofun
  reported id := (h.reported id).resolve_right nofun
  testSets := by
    obtain ⟨made, hkept, hleft⟩ := h.testSets
    rw [← hkept, List.filter_eq_self.mpr]
    intro s hs
    have hnot : s.testSet.id ∉ made := fun hmem => by
      obtain ⟨set, e, hmem, -⟩ := hleft s hs hmem
      cases hmem
    exact decide_eq_true hnot

end Contents

/-- An entry that may differ from a former table may be replaced by any. -/
theorem put_or {β : Type} {f f₀ : ObjectId → β} {P : ObjectId → Prop} {id : ObjectId}
    (h : ∀ other, f other = f₀ other ∨ P other) (hid : P id) (b : β) (other : ObjectId) :
    put f id b other = f₀ other ∨ P other := by
  by_cases heq : other = id
  · rw [heq]
    exact .inr hid
  · rw [put_other _ _ heq]
    exact h other

namespace Guard

/-- The ids of the test sets that were made. -/
def madeIds (g : Guard) : List ObjectId := g.temporary.map (·.id)

/-- The guard's memory bridges the contents at the start and the present ones. Items are told apart by
their ids; a test set that was made is nobody's unless somebody was given it. -/
structure Tracks (targets : List Item) (st₀ : Contents) (g : Guard) (st : Contents) : Prop where
  configurations : st.configurations = st₀.configurations
  tree : st.tree = st₀.tree
  items : st.items = st₀.items
  directories : g.formerDataDir = st₀.dataDir g.configuration.id ∧
    g.formerReportDir = st₀.reportDir g.configuration.id
  dataDir : ∀ id, st.dataDir id = st₀.dataDir id ∨
    g.directoriesChanged = true ∧ id = g.configuration.id
  reportDir : ∀ id, st.reportDir id = st₀.reportDir id ∨
    g.directoriesChanged = true ∧ id = g.configuration.id
  active : ∀ id, st.active id = st₀.active id ∨ ∃ item ∈ g.deactivated, item.id = id
  wasActive : ∀ item ∈ g.deactivated, st₀.active item.id = true
  among : ∀ item ∈ g.reassigned, item ∈ targets
  held : ∀ id, (∀ item ∈ g.reassigned, item.id ≠ id) →
    st.held id = st₀.held id ∧ ∀ made ∈ g.madeIds, st.held id ≠ some made
  former : ∀ item former, (item, former) ∈ g.formerTestSets → former = st₀.reported item.id
  kept : st.testSets.filter (fun s => s.testSet.id ∉ g.madeIds) = st₀.testSets
  made : ∀ s ∈ st.testSets, s.testSet.id ∈ g.madeIds → s.project = g.project.id

namespace Tracks

variable {targets : List Item} {st₀ st : Contents} {g : Guard}

theorem of_fresh (hg : g.Fresh) (hdata : g.formerDataDir = st.dataDir g.configuration.id)
    (hreport : g.formerReportDir = st.reportDir g.configuration.id) : g.Tracks targets st st := by
  have hmade : g.madeIds = [] := by
    rw [madeIds, hg.temporary]
    rfl
  have hreassigned : g.reassigned = [] := by
    rw [reassigned, hg.formerTestSets]
    rfl
  constructor
  · rfl
  · rfl
  · rfl
  · exact ⟨hdata, hreport⟩
  · exact fun _ => .inl rfl
  · exact fun _ => .inl rfl
  · exact fun _ => .inl rfl
  · rw [hg.deactivated]
    exact fun _ hid => absurd hid List.not_mem_nil
  · rw [hreassigned]
    exact fun _ hid => absurd hid List.not_mem_nil
  · rw [hmade]
    exact fun _ _ => ⟨rfl, fun _ hid => absurd hid List.not_mem_nil⟩
  · rw [hg.formerTestSets]
    exact fun _ _ hid => absurd hid List.not_mem_nil
  · rw [hmade]
    exact List.filter_eq_self.mpr fun _ _ => decide_eq_true List.not_mem_nil
  · rw [hmade]
    exact fun _ _ hid => absurd hid List.not_mem_nil

theorem of_besides {st' : Contents} (h : g.Tracks targets st₀ st) (hb : st.Besides st') :
    g.Tracks targets st₀ st' := by
  obtain ⟨projects, rfl⟩ := hb
  exact { h with }

theorem markDirectories (h : g.Tracks targets st₀ st) : g.markDirectories.Tracks targets st₀ st :=
  { h with
    dataDir := fun id => (h.dataDir id).imp_right fun hc => ⟨rfl, hc.2⟩
    reportDir := fun id => (h.reportDir id).imp_right fun hc => ⟨rfl, hc.2⟩ }

theorem putDataDir (h : g.Tracks targets st₀ st) (hg : g.directoriesChanged = true) (path : Path) :
    g.Tracks targets st₀ { st with dataDir := put st.dataDir g.configuration.id path } :=
  { h with dataDir := put_or h.dataDir ⟨hg, rfl⟩ path }

theorem putReportDir (h : g.Tracks targets st₀ st) (hg : g.directoriesChanged = true)
    (path : Path) :
    g.Tracks targets st₀ { st with reportDir := put st.reportDir g.configuration.id path } :=
  { h with reportDir := put_or h.reportDir ⟨hg, rfl⟩ path }

theorem putHeld (h : g.Tracks targets st₀ st) {item : Item} (hi : item ∈ g.reassigned)
    (held : Option ObjectId) :
    g.Tracks targets st₀ { st with held := put st.held item.id held } :=
  { h with
    held := by
      intro id hid
      change put st.held item.id held id = _ ∧ ∀ made ∈ g.madeIds, put st.held item.id held id ≠ _
      rw [put_other _ _ (hid item hi).symm]
      exact h.held id hid }

theorem putActive (h : g.Tracks targets st₀ st) {item : Item} (hi : item ∈ g.deactivated)
    (active : Bool) :
    g.Tracks targets st₀ { st with active := put st.active item.id active } :=
  { h with active := put_or h.active ⟨item, hi, rfl⟩ active }

theorem rememberDeactivated (h : g.Tracks targets st₀ st) {item : Item}
    (hactive : st₀.active item.id = true) :
    (g.rememberDeactivated item).Tracks targets st₀ st := by
  unfold Guard.rememberDeactivated
  by_cases hi : item ∈ g.deactivated
  · rw [if_pos hi]
    exact h
  · rw [if_neg hi]
    exact { h with
      active := fun id => (h.active id).imp_right fun ⟨other, hother, hid⟩ =>
        ⟨other, List.mem_append_left _ hother, hid⟩
      wasActive := by
        intro other hother
        rcases List.mem_append.mp hother with hother | hother
        · exact h.wasActive other hother
        · rw [List.mem_singleton.mp hother]
          exact hactive }

theorem rememberTestSet (h : g.Tracks targets st₀ st) {item : Item} (hi : item ∈ targets)
    (hdistinct : ∀ i ∈ targets, ∀ j ∈ targets, i.id = j.id → i = j) (hfresh : item ∉ g.reassigned) :
    (g.rememberTestSet item (st.reported item.id)).Tracks targets st₀ st := by
  -- the item was never given a test set, so it holds what it held at the start
  have hunassigned : ∀ other ∈ g.reassigned, other.id ≠ item.id := by
    intro other hother hid
    have hsame := hdistinct other (h.among other hother) item hi hid
    rw [hsame] at hother
    exact hfresh hother
  have hreassigned : (g.rememberTestSet item (st.reported item.id)).reassigned =
      g.reassigned ++ [item] := by
    simp [reassigned, Guard.rememberTestSet]
  exact { h with
    among := by
      intro other hother
      rw [hreassigned] at hother
      rcases List.mem_append.mp hother with hother | hother
      · exact h.among other hother
      · rw [List.mem_singleton.mp hother]
        exact hi
    held := by
      intro id hid
      rw [hreassigned] at hid
      exact h.held id fun other hother => hid other (List.mem_append_left _ hother)
    former := by
      intro other former hmem
      rcases List.mem_append.mp hmem with hmem | hmem
      · exact h.former other former hmem
      · cases List.mem_singleton.mp hmem
        have hheld := h.held item.id hunassigned
        exact reported_of_kept h.kept hheld.1 hheld.2 }

theorem rememberTemporary (h : g.Tracks targets st₀ st) {testSet : TestSet}
    {before after : List KeptSet} (hunused : st.Unused testSet.id)
    (hparts : st.testSets = before ++ after) :
    (g.rememberTemporary testSet).Tracks targets st₀
      { st with testSets := before ++ ⟨g.project.id, testSet, []⟩ :: after } := by
  have hmade : (g.rememberTemporary testSet).madeIds = g.madeIds ++ [testSet.id] := by
    simp [madeIds, Guard.rememberTemporary]
  exact { h with
    held := by
      intro id hid
      -- nobody refers to an unused id
      obtain ⟨hheld, hnot⟩ := h.held id hid
      refine ⟨hheld, fun made hmem => ?_⟩
      rw [hmade] at hmem
      rcases List.mem_append.mp hmem with hmem | hmem
      · exact hnot made hmem
      · rw [List.mem_singleton.mp hmem]
        exact hunused.unreferenced id
    kept := by
      have hsame : ∀ s ∈ st.testSets, decide (s.testSet.id ∉ g.madeIds ++ [testSet.id]) =
          decide (s.testSet.id ∉ g.madeIds) := by
        intro s hs
        have hne := hunused.unkept s hs
        simp [hne]
      calc (before ++ ⟨g.project.id, testSet, []⟩ :: after).filter
            (fun s => s.testSet.id ∉ (g.rememberTemporary testSet).madeIds)
          = (before ++ after).filter fun s => s.testSet.id ∉ g.madeIds ++ [testSet.id] := by
            simp [hmade, List.filter_append]
        _ = st.testSets.filter fun s => s.testSet.id ∉ g.madeIds := by
            rw [← hparts, List.filter_congr hsame]
        _ = st₀.testSets := h.kept
    made := by
      intro s hs hmem
      rw [hmade] at hmem
      have hold : s ∈ st.testSets → s.project = g.project.id := by
        intro hs
        rcases List.mem_append.mp hmem with hmem | hmem
        · exact h.made s hs hmem
        · exact absurd (List.mem_singleton.mp hmem) (hunused.unkept s hs)
      rw [hparts] at hold
      rcases List.mem_append.mp hs with hs | hs
      · exact hold (List.mem_append_left _ hs)
      · rcases List.mem_cons.mp hs with rfl | hs
        · rfl
        · exact hold (List.mem_append_right _ hs) }

theorem extend (h : g.Tracks targets st₀ st) {id : ObjectId} (hid : id ∈ g.madeIds)
    (added : List Scenario) : g.Tracks targets st₀ (st.extend id added) := by
  have hmap : ∀ s : KeptSet, (if s.testSet.id = id then { s with scenarios := s.scenarios ++ added }
      else s).testSet = s.testSet := by
    intro s
    split <;> rfl
  exact { h with
    kept := by
      -- the former test sets pass the filter, and filling leaves them alone
      change (st.testSets.map _).filter _ = _
      have hsame : ∀ s ∈ st.testSets.filter (fun s => s.testSet.id ∉ g.madeIds),
          (if s.testSet.id = id then { s with scenarios := s.scenarios ++ added } else s) = s := by
        intro s hs
        have hnot : s.testSet.id ∉ g.madeIds := by simpa using (List.mem_filter.mp hs).2
        have hne : s.testSet.id ≠ id := fun heq => hnot (by rwa [heq])
        exact if_neg hne
      rw [List.filter_map, ← h.kept]
      simp only [Function.comp_def, hmap]
      rw [List.map_congr_left hsame, List.map_id']
    made := by
      intro s hs hmem
      obtain ⟨s', hs', rfl⟩ := List.mem_map.mp hs
      rw [hmap] at hmem
      have hproject := h.made s' hs' hmem
      split <;> exact hproject }

variable (hdistinct : ∀ i ∈ targets, ∀ j ∈ targets, i.id = j.id → i = j)

include hdistinct in
/-- A change under a guard is bridged, whether its calls succeed or fail, and with their work done or
not. -/
theorem block (h : g.Tracks targets st₀ st) {xs : List Exchange} (hb : g.Block xs)
    (hread : ∀ item a, ⟨.itemTestSet item, a⟩ ∈ xs → item ∈ targets)
    (hactive : ∀ item active a, ⟨.setItemActive item active, a⟩ ∈ xs → st₀.active item.id = true)
    {st' : Contents} (hev : Evolves st xs st') : (g.rememberAll xs).Tracks targets st₀ st' := by
  cases hb with
  | redirectData path a =>
    have hmarked := h.markDirectories
    rcases (passes_singleton.mp hev).effect with rfl | ⟨reply, rfl⟩
    · exact hmarked
    · exact hmarked.putDataDir rfl path
  | redirectReport path a =>
    have hmarked := h.markDirectories
    rcases (passes_singleton.mp hev).effect with rfl | ⟨reply, rfl⟩
    · exact hmarked
    · exact hmarked.putReportDir rfl path
  | unread item e fresh =>
    rcases (passes_singleton.mp hev).effect with rfl | ⟨reply, -, rfl⟩
    · exact h
    · exact h
  | firstAssign item former testSet a fresh =>
    have hitem : item ∈ targets := hread item (.ok former) List.mem_cons_self
    obtain ⟨st₁, htold, hassign⟩ := passes_cons.mp hev
    obtain ⟨rfl, rfl⟩ : former = st.reported item.id ∧ st₁ = st := htold
    have hremembered := h.rememberTestSet hitem hdistinct fresh
    have hmem : item ∈ (g.rememberTestSet item (st₁.reported item.id)).reassigned := by
      simp [reassigned, Guard.rememberTestSet]
    rcases (passes_singleton.mp hassign).effect with rfl | ⟨reply, rfl | ⟨-, rfl⟩⟩
    · exact hremembered
    · exact hremembered.putHeld hmem _
    · exact hremembered
  | nextAssign item testSet a known =>
    rcases (passes_singleton.mp hev).effect with rfl | ⟨reply, rfl | ⟨-, rfl⟩⟩
    · exact h
    · exact h.putHeld known _
    · exact h
  | deactivate item a =>
    have hremembered := h.rememberDeactivated (hactive item false a List.mem_cons_self)
    rcases (passes_singleton.mp hev).effect with rfl | ⟨reply, rfl⟩
    · exact hremembered
    · exact hremembered.putActive (g.mem_rememberDeactivated item) false
  | uncreated name e =>
    obtain rfl := (passes_singleton.mp hev).uncreated
    exact h
  | create name testSet scenarios a =>
    obtain ⟨st₁, hmade, hfill⟩ := passes_cons.mp hev
    obtain ⟨-, hunused, before, after, hparts, rfl⟩ := hmade.took
    have hremembered := h.rememberTemporary hunused hparts
    have hmem : testSet.id ∈ (g.rememberTemporary testSet).madeIds := by
      simp [madeIds, Guard.rememberTemporary]
    rcases (passes_singleton.mp hfill).effect with rfl | ⟨reply, added, -, rfl⟩
    · exact hremembered
    · exact hremembered.extend hmem added

include hdistinct in
theorem blocks (h : g.Tracks targets st₀ st) {xs : List Exchange} (hb : g.Blocks xs)
    (hread : ∀ item a, ⟨.itemTestSet item, a⟩ ∈ xs → item ∈ targets)
    (hactive : ∀ item active a, ⟨.setItemActive item active, a⟩ ∈ xs → st₀.active item.id = true)
    {st' : Contents} (hev : Evolves st xs st') : (g.rememberAll xs).Tracks targets st₀ st' := by
  induction hb generalizing st with
  | nil g =>
    cases hev
    exact h
  | cons first rest ih =>
    obtain ⟨st₁, hfirst, hrest⟩ := passes_append.mp hev
    rw [rememberAll_append]
    have hnext := h.block hdistinct first (fun item a hx => hread item a (List.mem_append_left _ hx))
      (fun item active a hx => hactive item active a (List.mem_append_left _ hx)) hfirst
    exact ih hnext (fun item a hx => hread item a (List.mem_append_right _ hx))
      (fun item active a hx => hactive item active a (List.mem_append_right _ hx)) hrest

end Tracks

end Guard

namespace Contents

/-- An item refers to a test set again, or to none that is there. -/
def Settled (st : Contents) (item : ObjectId) : Option TestSet → Prop
  | some testSet => st.held item = some testSet.id
  | none => st.reported item = none

/-- The contents differ at most in what some items refer to. -/
structure Reheld (ids : List ObjectId) (st st' : Contents) : Prop where
  same : st' = { st with held := st'.held }
  held : ∀ id, id ∉ ids → st'.held id = st.held id

variable {st st₁ st' : Contents}

theorem Reheld.refl (ids : List ObjectId) (st : Contents) : st.Reheld ids st := ⟨rfl, fun _ _ => rfl⟩

theorem Reheld.put (st : Contents) (id : ObjectId) (held : Option ObjectId) :
    st.Reheld [id] { st with held := put st.held id held } := by
  refine ⟨rfl, fun other hother => ?_⟩
  exact put_other _ _ fun heq => hother (List.mem_singleton.mpr heq)

theorem Reheld.trans {ids ids₁ : List ObjectId} (h : st.Reheld ids st₁) (h₁ : st₁.Reheld ids₁ st') :
    st.Reheld (ids ++ ids₁) st' := by
  constructor
  · rw [h₁.same, h.same]
  · intro id hid
    have hnot : id ∉ ids ∧ id ∉ ids₁ := by simpa using hid
    rw [h₁.held id hnot.2, h.held id hnot.1]

theorem Reheld.testSets {ids : List ObjectId} (h : st.Reheld ids st') : st'.testSets = st.testSets := by
  rw [h.same]

theorem reported_congr {id : ObjectId} (hsets : st'.testSets = st.testSets)
    (hheld : st'.held id = st.held id) : st'.reported id = st.reported id := by
  have hset : st'.set? = st.set? := funext fun id => by rw [set?, set?, hsets]
  rw [reported, reported, heldSet, heldSet, hset, hheld]

theorem reported_eq_none {id : ObjectId} (h : st.reported id = none)
    (hsets : st'.testSets ⊆ st.testSets) (hheld : st'.held id = st.held id) :
    st'.reported id = none := by
  rw [reported, Option.map_eq_none_iff, heldSet, Option.bind_eq_none_iff] at h ⊢
  intro held hsome
  have hnone := h held (hheld ▸ hsome)
  rw [set?, List.find?_eq_none] at hnone ⊢
  exact fun s hs => hnone s (hsets hs)

/-- An item that is settled is reported to hold what it held, as soon as the test sets are the former
ones and perhaps others. -/
theorem Settled.reported {st₀ : Contents} {made : List ObjectId} {id : ObjectId}
    (h : st.Settled id (st₀.reported id)) (hheld : st'.held id = st.held id)
    (hsub : st'.testSets ⊆ st.testSets)
    (hkept : (st'.testSets.filter fun s => s.testSet.id ∉ made) = st₀.testSets) :
    st'.reported id = st₀.reported id := by
  cases hwas : st₀.reported id with
  | none =>
    rw [hwas] at h
    exact reported_eq_none h hsub hheld
  | some testSet =>
    rw [hwas] at h
    -- what was reported at the start was there then, so it is not one that was made
    obtain ⟨s, hset, hsame⟩ := set?_of_reported hwas
    have hmem : s ∈ st'.testSets.filter fun s => s.testSet.id ∉ made := by
      rw [hkept]
      exact List.mem_of_find?_eq_some hset
    have hnot : testSet.id ∉ made := by
      have hfiltered := (List.mem_filter.mp hmem).2
      rw [set?_id hset] at hfiltered
      simpa using hfiltered
    have hset' : st'.set? testSet.id = some s := (set?_of_kept hkept hnot).trans hset
    have hheld' : st'.held id = some testSet.id := hheld.trans h
    rw [Contents.reported, heldSet, hheld', Option.bind_some, hset', Option.map_some, hsame]

theorem Settled.of_reheld {ids : List ObjectId} {id : ObjectId} {former : Option TestSet}
    (h : st.Settled id former) (hr : st.Reheld ids st') (hid : id ∉ ids) : st'.Settled id former := by
  cases former with
  | some testSet => exact (hr.held id hid).trans h
  | none => exact (reported_congr hr.testSets (hr.held id hid)).trans h

end Contents

/-- A table is the former one again where the one entry that may differ is put back. -/
theorem put_back {β : Type} {f f₀ : ObjectId → β} {changed : Bool} {id : ObjectId}
    (h : ∀ other, f other = f₀ other ∨ changed = true ∧ other = id) :
    (if changed then put f id (f₀ id) else f) = f₀ := by
  funext other
  cases changed with
  | false => exact (h other).resolve_right fun hc => Bool.false_ne_true hc.1
  | true =>
    by_cases hid : other = id
    · rw [hid]
      exact put_same f id _
    · exact (put_other f _ hid).trans ((h other).resolve_right fun hc => hid hc.2)

namespace Guard

variable {g : Guard} {st st' : Contents} {xs : List Exchange}

theorem Returned.settles {item : Item} {former still : Option TestSet} {failures : List RestoreFailure}
    (h : Returned item former xs failures still) (hev : Evolves st xs st') :
    st.Reheld [item.id] st' ∧
      (st'.Settled item.id former ∨ ∃ failure ∈ failures, failure.unsettled? = some item) := by
  have hset {testSet : Option TestSet} {a : Except EngineError Unit} {st₁ : Contents}
      (h : Exchange.Serves ⟨.setItemTestSet item testSet, a⟩ st st₁) : st.Reheld [item.id] st₁ := by
    rcases h.effect with rfl | ⟨reply, rfl | ⟨-, rfl⟩⟩
    · exact .refl _ _
    · exact .put st item.id _
    · exact .refl _ _
  have hread {a : Except EngineError (Option TestSet)} {st₁ : Contents}
      (h : Exchange.Serves ⟨.itemTestSet item, a⟩ st₁ st') : st' = st₁ := by
    rcases h.effect with rfl | ⟨reply, -, rfl⟩ <;> rfl
  cases h with
  | refused former e =>
    exact ⟨hset (passes_singleton.mp hev), .inr ⟨_, List.mem_singleton.mpr rfl, rfl⟩⟩
  | given testSet =>
    refine ⟨hset (passes_singleton.mp hev), .inl ?_⟩
    rcases (passes_singleton.mp hev).took with rfl | ⟨hnone, -⟩
    · exact put_same _ _ _
    · cases hnone
  | cleared =>
    obtain ⟨st₁, hclear, hverify⟩ := passes_cons.mp hev
    -- clearing may have been ignored, but then nothing was there
    obtain ⟨hnone, rfl⟩ : none = st₁.reported item.id ∧ st' = st₁ := passes_singleton.mp hverify
    exact ⟨hset hclear, .inl hnone.symm⟩
  | held still =>
    obtain ⟨st₁, hclear, hverify⟩ := passes_cons.mp hev
    obtain rfl := hread (passes_singleton.mp hverify)
    exact ⟨hset hclear, .inr ⟨_, List.mem_singleton.mpr rfl, rfl⟩⟩
  | unverified e =>
    obtain ⟨st₁, hclear, hverify⟩ := passes_cons.mp hev
    obtain rfl := hread (passes_singleton.mp hverify)
    exact ⟨hset hclear, .inr ⟨_, List.mem_singleton.mpr rfl, rfl⟩⟩

theorem ReturnedAll.settles {former : List (Item × Option TestSet)} {failures : List RestoreFailure}
    {held : List (Item × TestSet)} (h : ReturnedAll former xs failures held)
    {was : ObjectId → Option TestSet} (hwas : ∀ item f, (item, f) ∈ former → f = was item.id)
    (hev : Evolves st xs st') :
    st.Reheld (former.map (·.1.id)) st' ∧
      ∀ id, st.Settled id (was id) ∨ id ∈ former.map (·.1.id) → st'.Settled id (was id) ∨
        ∃ failure ∈ failures, ∃ item, failure.unsettled? = some item ∧ item.id = id := by
  induction h generalizing st with
  | nil =>
    obtain rfl := passes_nil.mp hev
    exact ⟨.refl _ _, fun id h => .inl (h.resolve_right List.not_mem_nil)⟩
  | @cons item former rest xs ys failures others still held first next ih =>
    obtain ⟨st₁, hfirst, hnext⟩ := passes_append.mp hev
    obtain ⟨hreheld, hsettled⟩ := first.settles hfirst
    obtain ⟨hreheld', hlater⟩ := ih (fun i f h => hwas i f (List.mem_cons_of_mem _ h)) hnext
    refine ⟨hreheld.trans hreheld', fun id hid => ?_⟩
    have hrest (h : st₁.Settled id (was id) ∨ id ∈ rest.map (·.1.id)) :
        st'.Settled id (was id) ∨ ∃ failure ∈ failures ++ others, ∃ item,
          failure.unsettled? = some item ∧ item.id = id :=
      (hlater id h).imp_right fun ⟨failure, hmem, hitem⟩ =>
        ⟨failure, List.mem_append_right _ hmem, hitem⟩
    rw [hwas item former List.mem_cons_self] at hsettled
    -- an item may come more than once; its last return decides
    by_cases hitem : id = item.id
    · rw [hitem] at hrest ⊢
      rcases hsettled with hsettled | ⟨failure, hmem, hblamed⟩
      · exact hrest (.inl hsettled)
      · exact .inr ⟨failure, List.mem_append_left _ hmem, item, hblamed, rfl⟩
    · rcases hid with hid | hid
      · exact hrest (.inl (hid.of_reheld hreheld fun h => hitem (List.mem_singleton.mp h)))
      · exact hrest (.inr ((List.mem_cons.mp hid).resolve_left hitem))

theorem Reset.resets {failures : List RestoreFailure} (h : g.Reset xs failures)
    (hev : Evolves st xs st') :
    st' = { st with dataDir := st'.dataDir, reportDir := st'.reportDir } ∧
      ((st'.dataDir = if g.directoriesChanged then
          put st.dataDir g.configuration.id g.formerDataDir
        else st.dataDir) ∨ ∃ e, .dataDir e ∈ failures) ∧
      ((st'.reportDir = if g.directoriesChanged then
          put st.reportDir g.configuration.id g.formerReportDir
        else st.reportDir) ∨ ∃ e, .reportDir e ∈ failures) := by
  cases h with
  | untouched unchanged =>
    obtain rfl := passes_nil.mp hev
    rw [unchanged]
    exact ⟨rfl, .inl rfl, .inl rfl⟩
  | tried changed a b =>
    obtain ⟨st₁, hdata, hreport⟩ := passes_cons.mp hev
    have hreport := passes_singleton.mp hreport
    have hdata' : st₁ = { st with dataDir := st₁.dataDir } := by
      rcases hdata.effect with rfl | ⟨reply, rfl⟩ <;> rfl
    have hreport' : st' = { st₁ with reportDir := st'.reportDir } := by
      rcases hreport.effect with rfl | ⟨reply, rfl⟩ <;> rfl
    -- each of the two is tried, whatever became of the other
    rw [changed]
    refine ⟨?_, ?_, ?_⟩
    · rw [hreport', hdata']
    · cases a with
      | error e => exact .inr ⟨e, List.mem_append_left _ (List.mem_singleton.mpr rfl)⟩
      | ok u =>
        rw [hreport', hdata.took]
        exact .inl rfl
    · cases b with
      | error e => exact .inr ⟨e, List.mem_append_right _ (List.mem_singleton.mpr rfl)⟩
      | ok u =>
        rw [hreport.took, hdata']
        exact .inl rfl

theorem filter_unmade_cons (sets : List KeptSet) (id : ObjectId) (ids : List ObjectId) :
    (sets.filter fun s => s.testSet.id ∉ id :: ids) =
      (sets.filter fun s => s.testSet.id ∉ ids).filter fun s => s.testSet.id ≠ id := by
  rw [List.filter_filter]
  apply List.filter_congr
  intro s _
  simp

theorem filter_unmade_remove (st : Contents) (project id : ObjectId) (ids : List ObjectId) :
    ((st.remove project id).testSets.filter fun s => s.testSet.id ∉ id :: ids) =
      st.testSets.filter fun s => s.testSet.id ∉ id :: ids := by
  rw [remove, List.filter_filter]
  apply List.filter_congr
  intro s _
  by_cases hid : s.testSet.id = id <;> simp [hid]

/-- A test set is gone after a try to delete it, or a failure tells that it may be left; and no other
one is gone. -/
theorem Tried.deletes {project : Project} {held : List (Item × TestSet)} {temporary : List TestSet}
    {failures : List RestoreFailure}
    (h : Tried (.deleteTestSet project) (deletionReport held) temporary xs failures)
    (hev : Evolves st xs st') :
    st' = { st with testSets := st'.testSets } ∧ st'.testSets ⊆ st.testSets ∧
      (st'.testSets.filter fun s => s.testSet.id ∉ temporary.map (·.id)) =
        (st.testSets.filter fun s => s.testSet.id ∉ temporary.map (·.id)) ∧
      ∀ s ∈ st'.testSets, s.project = project.id → s.testSet.id ∈ temporary.map (·.id) →
        ∃ set e, .deletion set e ∈ failures ∧ set.id = s.testSet.id := by
  induction h generalizing st with
  | nil =>
    obtain rfl := passes_nil.mp hev
    exact ⟨rfl, List.Subset.refl _, rfl, fun s _ _ => nofun⟩
  | @cons rest xs failures testSet a next ih =>
    obtain ⟨st₁, hdelete, hnext⟩ := passes_cons.mp hev
    obtain ⟨hsame, hsub, hkept, hleft⟩ := ih hnext
    have hst₁ : st₁ = st ∨ st₁ = st.remove project.id testSet.id :=
      hdelete.effect.imp_right fun ⟨_, h⟩ => h
    have hsame₁ : st₁ = { st with testSets := st₁.testSets } := by
      rcases hst₁ with rfl | rfl <;> rfl
    have hsub₁ : st₁.testSets ⊆ st.testSets := by
      rcases hst₁ with rfl | rfl
      · exact List.Subset.refl _
      · exact List.filter_sublist.subset
    refine ⟨by rw [hsame, hsame₁], List.Subset.trans hsub hsub₁, ?_, ?_⟩
    · have hone : (st₁.testSets.filter fun s => s.testSet.id ∉ testSet.id :: rest.map (·.id)) =
          st.testSets.filter fun s => s.testSet.id ∉ testSet.id :: rest.map (·.id) := by
        rcases hst₁ with rfl | rfl
        · rfl
        · exact filter_unmade_remove st project.id testSet.id _
      calc st'.testSets.filter (fun s => s.testSet.id ∉ testSet.id :: rest.map (·.id))
          = (st'.testSets.filter fun s => s.testSet.id ∉ rest.map (·.id)).filter
              fun s => s.testSet.id ≠ testSet.id := filter_unmade_cons _ _ _
        _ = (st₁.testSets.filter fun s => s.testSet.id ∉ rest.map (·.id)).filter
              fun s => s.testSet.id ≠ testSet.id := by rw [hkept]
        _ = st₁.testSets.filter fun s => s.testSet.id ∉ testSet.id :: rest.map (·.id) :=
          (filter_unmade_cons _ _ _).symm
        _ = st.testSets.filter fun s => s.testSet.id ∉ testSet.id :: rest.map (·.id) := hone
    · intro s hs hproject hid
      by_cases hrest : s.testSet.id ∈ rest.map (·.id)
      · obtain ⟨set, e, hmem, hset⟩ := hleft s hs hproject hrest
        exact ⟨set, e, List.mem_append_right _ hmem, hset⟩
      · have hthis : s.testSet.id = testSet.id := (List.mem_cons.mp hid).resolve_right hrest
        -- a test set that is left although it was to go: the deletion failed
        cases a with
        | error e =>
          exact ⟨testSet, e, List.mem_append_left _ (List.mem_singleton.mpr rfl), hthis.symm⟩
        | ok u =>
          have hgone := hsub hs
          rw [hdelete.took, remove] at hgone
          have hnot := (List.mem_filter.mp hgone).2
          simp [hproject, hthis] at hnot

theorem Tried.reactivates {items : List Item} {failures : List RestoreFailure}
    (h : Tried reactivation (fun i => RestoreFailure.blamed (.activation i)) items xs failures)
    (hev : Evolves st xs st') :
    st' = { st with active := st'.active } ∧
      ∀ id, st'.active id = (st.active id || decide (id ∈ items.map (·.id))) ∨
        ∃ item e, .activation item e ∈ failures ∧ item.id = id := by
  induction h generalizing st with
  | nil =>
    obtain rfl := passes_nil.mp hev
    exact ⟨rfl, fun id => .inl (by simp)⟩
  | @cons rest xs failures item a next ih =>
    obtain ⟨st₁, hactivate, hnext⟩ := passes_cons.mp hev
    obtain ⟨hsame, hactive⟩ := ih hnext
    have hst₁ : st₁ = st ∨ st₁ = { st with active := put st.active item.id true } :=
      hactivate.effect.imp_right fun ⟨_, h⟩ => h
    have hsame₁ : st₁ = { st with active := st₁.active } := by
      rcases hst₁ with rfl | rfl <;> rfl
    refine ⟨by rw [hsame, hsame₁], fun id => ?_⟩
    rcases hactive id with hrest | ⟨other, e, hmem, hid⟩
    -- no later item is at fault, so it is this one or none
    · by_cases hid : id = item.id
      · cases a with
        | error e =>
          exact .inr ⟨item, e, List.mem_append_left _ (List.mem_singleton.mpr rfl), hid.symm⟩
        | ok u =>
          have htook : st₁ = { st with active := put st.active item.id true } := hactivate.took
          left
          rw [hrest, htook, hid]
          simp
      · have hother : st₁.active id = st.active id := by
          rcases hst₁ with rfl | rfl
          · rfl
          · exact put_other _ _ hid
        left
        rw [hrest, hother]
        simp [hid]
    · exact .inr ⟨other, e, List.mem_append_right _ hmem, hid⟩

namespace Tracks

variable {targets : List Item} {st₀ : Contents}

theorem active_back (h : g.Tracks targets st₀ st) (id : ObjectId) :
    (st.active id || decide (id ∈ g.deactivated.map (·.id))) = st₀.active id := by
  by_cases hid : id ∈ g.deactivated.map (·.id)
  · obtain ⟨item, hitem, rfl⟩ := List.mem_map.mp hid
    have hwas := h.wasActive item hitem
    simp [hid, hwas]
  · have hsame := (h.active id).resolve_right fun hc => hid (List.mem_map.mpr hc)
    simp [hid, hsame]

/-- An item is reported to hold what it held at the start, or a failure tells of it. -/
theorem reported_back (h : g.Tracks targets st₀ st) {st₁ : Contents} {failures : List RestoreFailure}
    {id : ObjectId} (hreheld : st.Reheld (g.formerTestSets.map (·.1.id)) st₁)
    (hsettled : id ∈ g.formerTestSets.map (·.1.id) → st₁.Settled id (st₀.reported id) ∨
      ∃ failure ∈ failures, ∃ item, failure.unsettled? = some item ∧ item.id = id)
    (hheld : st'.held id = st₁.held id) (hsub : st'.testSets ⊆ st₁.testSets)
    (hkept : (st'.testSets.filter fun s => s.testSet.id ∉ g.madeIds) = st₀.testSets) :
    st'.reported id = st₀.reported id ∨
      ∃ failure ∈ failures, ∃ item, failure.unsettled? = some item ∧ item.id = id := by
  by_cases hid : id ∈ g.formerTestSets.map (·.1.id)
  · exact (hsettled hid).imp_left fun hback => hback.reported hheld hsub hkept
  -- the item was never given a test set, least of all one that was made
  · have hunassigned : ∀ item ∈ g.reassigned, item.id ≠ id := by
      intro item hitem heq
      obtain ⟨entry, hentry, rfl⟩ := List.mem_map.mp hitem
      exact hid (List.mem_map.mpr ⟨entry, hentry, heq⟩)
    obtain ⟨hformer, hunmade⟩ := h.held id hunassigned
    have hsame : st'.held id = st.held id := hheld.trans (hreheld.held id hid)
    left
    apply reported_of_kept hkept
    · rw [hsame, hformer]
    · rwa [hsame]

/-- Whatever fails in a restore, all else comes back. -/
theorem restores (h : g.Tracks targets st₀ st) {failures : List RestoreFailure}
    (hr : g.Restores xs failures) (hev : Evolves st xs st') : Accounted failures st₀ st' := by
  cases hr with
  | @all xs₁ xs₂ xs₃ xs₄ failures₁ failures₂ failures₃ failures₄ held testSets directories deletions
      activations =>
    obtain ⟨st₃, hev, hev₄⟩ := passes_append.mp hev
    obtain ⟨st₂, hev, hev₃⟩ := passes_append.mp hev
    obtain ⟨st₁, hev₁, hev₂⟩ := passes_append.mp hev
    obtain ⟨hreheld, hsettled⟩ := testSets.settles h.former hev₁
    obtain ⟨hst₂, hdata, hreport⟩ := directories.resets hev₂
    obtain ⟨hst₃, hsub, hkept, hleft⟩ := deletions.deletes hev₃
    obtain ⟨hst₄, hactive⟩ := activations.reactivates hev₄
    have hst₁ := hreheld.same
    have hheld (id : ObjectId) : st'.held id = st₁.held id := by rw [hst₄, hst₃, hst₂]
    have hsets : st'.testSets = st₃.testSets := by rw [hst₄]
    have hsets₂ : st₂.testSets = st₁.testSets := by rw [hst₂]
    have hsub' : st'.testSets ⊆ st₁.testSets := by rwa [hsets, ← hsets₂]
    have hkept' : (st'.testSets.filter fun s => s.testSet.id ∉ g.madeIds) = st₀.testSets :=
      calc st'.testSets.filter (fun s => s.testSet.id ∉ g.madeIds)
          = st₂.testSets.filter fun s => s.testSet.id ∉ g.madeIds := by
            rw [hsets]
            exact hkept
        _ = st.testSets.filter fun s => s.testSet.id ∉ g.madeIds := by
            rw [hsets₂, hreheld.testSets]
        _ = st₀.testSets := h.kept
    -- a failure of one part is a failure of the restore
    have hpart {f : RestoreFailure}
        (hf : f ∈ failures₁ ∨ f ∈ failures₂ ∨ f ∈ failures₃ ∨ f ∈ failures₄) :
        f ∈ failures₁ ++ failures₂ ++ failures₃ ++ failures₄ := by
      simpa only [List.mem_append, or_assoc] using hf
    constructor
    · rw [hst₄, hst₃, hst₂, hst₁]
      exact h.configurations
    · rw [hst₄, hst₃, hst₂, hst₁]
      exact h.tree
    · rw [hst₄, hst₃, hst₂, hst₁]
      exact h.items
    · refine hdata.imp (fun hdata => ?_) fun ⟨e, he⟩ => ⟨e, hpart (.inr (.inl he))⟩
      rw [hst₄, hst₃, hdata, hst₁, h.directories.1]
      exact put_back h.dataDir
    · refine hreport.imp (fun hreport => ?_) fun ⟨e, he⟩ => ⟨e, hpart (.inr (.inl he))⟩
      rw [hst₄, hst₃, hreport, hst₁, h.directories.2]
      exact put_back h.reportDir
    · intro id
      refine (hactive id).imp (fun hactive => ?_) fun ⟨item, e, he, hid⟩ =>
        ⟨item, e, hpart (.inr (.inr (.inr he))), hid⟩
      rw [hactive, hst₃, hst₂, hst₁]
      exact h.active_back id
    · intro id
      have hback := h.reported_back hreheld (fun hid => hsettled id (.inr hid)) (hheld id) hsub' hkept'
      exact hback.imp_right fun ⟨f, hf, hitem⟩ => ⟨f, hpart (.inl hf), hitem⟩
    · refine ⟨g.madeIds, hkept', fun s hs hmem => ?_⟩
      have hproject := h.made s (hreheld.testSets ▸ hsub' hs) hmem
      rw [hsets] at hs
      obtain ⟨set, e, he, hset⟩ := hleft s hs hproject hmem
      exact ⟨set, e, hpart (.inr (.inr (.inl he))), hset⟩

end Tracks

end Guard

namespace Request

variable {request : Request} {ctx : Orchestration} {st : Contents} {xs : List Exchange}

theorem Preparing.plans {directories : Option (Path × Path)} (h : request.Preparing xs directories) :
    ∀ x ∈ xs, x.Plans := by
  obtain ⟨c, ys, zs, rfl, hplanning, hreadings, -⟩ := h.planning
  intro x hx
  rcases List.mem_append.mp hx with hx | hx
  · exact (hplanning.kinds x hx).imp_right fun hopen => ⟨_, hopen⟩
  · exact .inl (hreadings.kinds x hx)

theorem Planned.items_eq {project : Project} {c : Configuration} {task : Task}
    (h : Planned ctx project c request xs task) (ha : st.Agrees xs) :
    task.items = [] ∨ task.items = st.activeOf (st.items c.id) := by
  -- the items are read once, whatever is planned
  have hitems {items : List Item} (hmem : ⟨.items c, .ok items⟩ ∈ xs) : items = st.items c.id :=
    ha (.items c) items hmem nofun
  cases h with
  | @execution request ys zs requested plan testSets resolved devised =>
    generalize request.testSet = named at devised
    cases devised with
    | unfiltered empty => exact .inl rfl
    | @perItem items xs actions some examined =>
      have hactions := (ha.mono fun x hx => by simp [hx]).examined examined
      have hlist : items = st.items c.id := hitems (by simp)
      rw [Task.items, Plan.items, hactions, items_actions, hlist]
      exact .inr rfl
    | @shared name testSets testSet inSet scenarios items xs active found covered filled picked =>
      have hactive := (ha.mono fun x hx => by simp [hx]).picked picked
      have hlist : items = st.items c.id := hitems (by simp)
      rw [Task.items, Plan.items, hactive, hlist]
      exact .inr rfl
  | @report request xs assignment named =>
    generalize request.testSet = name at named
    cases named with
    | nothing => exact .inl rfl
    | @found name testSets testSet items xs active found picked =>
      have hactive := (ha.mono fun x hx => by simp [hx]).picked picked
      have hlist : items = st.items c.id := hitems (by simp)
      rw [Task.items, hactive, hlist]
      exact .inr rfl

theorem Planned.items_subset {project : Project} {c : Configuration} {task : Task}
    (h : Planned ctx project c request xs task) (ha : st.Agrees xs) :
    task.items ⊆ st.activeOf (st.items c.id) := by
  rcases h.items_eq ha with hitems | hitems <;> rw [hitems]
  · exact List.nil_subset _
  · exact List.Subset.refl _

end Request

theorem Request.Working.isWork {request : Request} {c : Configuration} {xs : List Exchange}
    (h : request.Working c xs) : ∀ x ∈ xs, x.call.isWork = true := by
  have htrigger (a) : (request.triggered c a).call.isWork = true := by cases request <;> rfl
  cases h with
  | idle => exact nofun
  | refused e => simpa using htrigger (.error e)
  | @awaited execution xs h =>
    refine List.forall_mem_cons.mpr ⟨htrigger (.ok execution), fun x hx => ?_⟩
    rcases h.kinds x hx with hcall | hcall <;> rw [hcall] <;> rfl

theorem Task.Region.tracks {ctx : Orchestration} {task : Task} {g g' : Guard} {s : σ} {flag : Bool}
    {t : Trace} {r : Except OrchestrationError Unit} {st₀ st st' : Contents}
    (h : Task.Region env ctx task g s flag t (some (r, g'))) (hg : g.Tracks task.items st₀ st)
    (hactive : ∀ item ∈ task.items, st₀.active item.id = true)
    (hdistinct : ∀ i ∈ task.items, ∀ j ∈ task.items, i.id = j.id → i = j)
    (hev : Evolves st t.exchanges st') : g'.Tracks task.items st₀ st' := by
  -- the changes are blocks, however they end, and the work after them changes nothing
  have hchanges {redirection alteration : Trace} {r : Except OrchestrationError Unit} {st₁ : Contents}
      (ha : Task.Altering task g redirection alteration r)
      (hev : Evolves st (redirection ++ alteration).exchanges st₁) :
      (g.rememberAll (redirection ++ alteration).exchanges).Tracks task.items st₀ st₁ := by
    have hitems : ∀ x ∈ (redirection ++ alteration).exchanges, x.call.isRedirect = false →
        ∀ item, x.call.item? = some item → item ∈ task.items := by
      intro x hx hkind
      rw [Trace.exchanges_append] at hx
      rcases List.mem_append.mp hx with hx | hx
      · rw [ha.redirects x hx] at hkind
        cases hkind
      · exact (ha.changes x hx).item_mem
    exact hg.blocks hdistinct ha.carries.blocks (fun item a hx => hitems _ hx rfl item rfl)
      (fun item active a hx => hactive item (hitems _ hx rfl item rfl)) hev
  generalize ho : some (r, g') = o at h
  cases h with
  | failed redirection alteration e altering =>
    cases ho
    exact hchanges altering hev
  | worked redirection alteration labour o altering labours =>
    obtain ⟨r', -, hr⟩ := Option.map_eq_some_iff.mp ho.symm
    cases hr
    rw [Trace.exchanges_append] at hev
    obtain ⟨st₁, hchange, hwork⟩ := passes_append.mp hev
    rw [Evolves.of_isWork hwork labours.working.isWork]
    exact hchanges altering hchange

/-- What the caller is told where a restore was not complete: what it was, in the log and as an error,
unless an interrupt was the reason to stop. -/
structure Guard.Reported (failures : List RestoreFailure) (lines : List LogLine)
    (r : Except OrchestrationError Outcome) : Prop where
  some : failures ≠ []
  announced : incomplete failures ∈ lines
  noted : ∀ failure ∈ failures, failure.line ∈ lines
  result : r = .error .interrupted ∨
    ∃ cause, r = .error (.restoreIncomplete (failures.map (·.message)) cause)

theorem Request.Prepared.tracks {ctx : Orchestration} {request : Request} {xs : List Exchange}
    {task : Task} {g : Guard} {st : Contents} (h : request.Prepared ctx xs task g)
    (ha : st.Agrees xs) : g.Tracks task.items st st ∧
      task.items ⊆ st.activeOf (st.items g.configuration.id) := by
  have hfresh := h.facts.2.1
  cases h with
  | @all xs ys zs project c task data report opened required planned =>
    have hdata : data = st.dataDir c.id := ha (.dataDir c) data (by simp) nofun
    have hreport : report = st.reportDir c.id := ha (.reportDir c) report (by simp) nofun
    have hplanned : st.Agrees zs := ha.mono fun x hx => by simp [hx]
    exact ⟨.of_fresh hfresh hdata hreport, planned.items_subset hplanned⟩

/-- What planning found and what was done under the guard is bridged together; the items are those of the
configuration. -/
theorem Task.Region.bridges {ctx : Orchestration} {request : Request} {task : Task} {g g' : Guard} {s : σ}
    {flag : Bool} {planning : List Exchange} {t : Trace} {r : Except OrchestrationError Unit}
    {st st₁ st₂ : Contents} (h : Task.Region env ctx task g s flag t (some (r, g')))
    (hprepared : request.Prepared ctx planning task g) (hagrees : st.Agrees planning)
    (hbesides : st.Besides st₁) (hdistinct : st.Distinct) (hev : Evolves st₁ t.exchanges st₂) :
    g'.Tracks task.items st st₂ ∧ ∀ item ∈ task.items, item ∈ st.items g.configuration.id := by
  obtain ⟨htracks, htargets⟩ := hprepared.tracks hagrees
  have hlisted : ∀ item ∈ task.items, item ∈ st.items g.configuration.id ∧ st.active item.id = true :=
    fun item hitem => mem_activeOf.mp (htargets hitem)
  have hids : ∀ i ∈ task.items, ∀ j ∈ task.items, i.id = j.id → i = j := fun i hi j hj hid =>
    hdistinct.eq_of_id (hlisted i hi).1 (hlisted j hj).1 hid
  -- what was open before planning is of no interest from here on
  have hbridged : g'.Tracks task.items st st₂ :=
    h.tracks (htracks.of_besides hbesides) (fun item hitem => (hlisted item hitem).2) hids hev
  exact ⟨hbridged, fun item hitem => (hlisted item hitem).1⟩

theorem concludeResult_incomplete {α : Type} (result : Except OrchestrationError α)
    {failures : List RestoreFailure} (h : failures ≠ []) :
    concludeResult result failures = .error .interrupted ∨ ∃ cause,
      concludeResult result failures = .error (.restoreIncomplete (failures.map (·.message)) cause) := by
  have hne : failures.isEmpty = false := by simpa using h
  unfold concludeResult
  split
  · exact .inl rfl
  · rw [hne, if_neg Bool.false_ne_true]
    exact .inr ⟨_, rfl⟩

theorem Course.recovers {ctx : Orchestration} {request : Request} {s : σ} {flag : Bool} {t : Trace}
    {r : Except OrchestrationError Outcome} (h : Course env ctx request s flag t (some r))
    {st st' : Contents} (hdistinct : st.Distinct) (hev : Evolves st t.exchanges st') :
    st.Same st' ∨
      ∃ failures, Guard.Reported failures t.lines r ∧ Accounted failures st st' := by
  generalize ho : some r = o at h
  cases h with
  | unprepared planning e awake preparing =>
    exact .inl (hev.of_plans preparing.plans).1.same
  | unfinished => cases ho
  | finished planning work restoration line task g result g' failures awake preparing prepared
      region restored =>
    cases ho
    simp only [Trace.exchanges_append, Trace.exchanges_noted, List.append_nil] at hev
    obtain ⟨st₁, hplanned, hev⟩ := passes_append.mp hev
    obtain ⟨st₂, hworked, hrestored⟩ := passes_append.mp hev
    obtain ⟨hbesides, hagrees⟩ := Evolves.of_plans hplanned preparing.plans
    obtain ⟨hbridged, -⟩ := region.bridges prepared hagrees hbesides hdistinct hworked
    have haccounted := hbridged.restores restored.restores hrestored
    by_cases hfailures : failures = []
    · rw [hfailures] at haccounted
      exact .inl haccounted.same
    · right
      have hlines : restoration.lines ⊆ (planning ++ (work ++ (restoration ++ .noted line))).lines := by
        intro line' h
        simp [h]
      refine ⟨failures, ⟨hfailures, hlines (restored.announced hfailures), ?_, ?_⟩, haccounted⟩
      · exact fun failure hf => hlines (restored.noted failure hf)
      · exact concludeResult_incomplete _ hfailures

/-- Whatever fails, an orchestration that returns has left everything the way it was, or has failures
to own up to: then each part that is not the way it was is among them. -/
theorem orchestrate_recovers (env : Environment σ) (view : σ → Contents)
    (hfaithful : Faithful env view) (ctx : Orchestration) (request : Request) (w w' : World σ)
    (r : Except OrchestrationError Outcome) (hdistinct : (view w.outside).Distinct)
    (hrun : Session.run (request.orchestrate ctx).run env w = (some r, w')) :
    (view w.outside).Same (view w'.outside) ∨ ∃ failures lines,
      w'.log.lines = w.log.lines ++ lines ∧ Guard.Reported failures lines r ∧
        Accounted failures (view w.outside) (view w'.outside) := by
  have htraces : Traces env w (request.orchestrate ctx).run
    (Course env ctx request w.outside w.interrupted) := traces_orchestrate ctx request
  obtain ⟨t, hl, hcourse⟩ := htraces
  rw [hrun] at hl hcourse
  have hev := hfaithful.passes_of_leads hl
  rcases hcourse.recovers hdistinct hev with hsame | ⟨failures, hreported, haccounted⟩
  · exact .inl hsame
  · exact .inr ⟨failures, t.lines, hl.lines, hreported, haccounted⟩

/-- The small rig is recovered where an item was switched off and the reply to that was lost. -/
theorem login_recovers_of_lost_reply : ∃ r w',
    Session.run ((Request.execution loginRequest).orchestrate { rounds := 3 }).run Rig.environment
      { outside := Rig.small (List.replicate 20 none ++ [some .lost]) } = (some r, w') ∧
    ((Rig.small (List.replicate 20 none ++ [some .lost])).contents.Same w'.outside.contents ∨
      ∃ failures lines, w'.log.lines = [] ++ lines ∧ Guard.Reported failures lines r ∧
        Accounted failures (Rig.small (List.replicate 20 none ++ [some .lost])).contents
          w'.outside.contents) := by
  have hsome : (Session.run ((Request.execution loginRequest).orchestrate { rounds := 3 }).run
      Rig.environment { outside := Rig.small (List.replicate 20 none ++ [some .lost]) }).1.isSome =
        true := by decide +kernel
  generalize hresult : Session.run ((Request.execution loginRequest).orchestrate { rounds := 3 }).run
    Rig.environment { outside := Rig.small (List.replicate 20 none ++ [some .lost]) } = result at hsome ⊢
  rcases result with ⟨_ | r, w'⟩
  · cases hsome
  · exact ⟨r, w', rfl, orchestrate_recovers Rig.environment Rig.contents Rig.faithful { rounds := 3 }
      (.execution loginRequest) _ w' r (Rig.distinct_small _) hresult⟩

end GuardedRun
