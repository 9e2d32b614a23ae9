import GuardedRun.Proofs.TreeSearch
import Mathlib.Logic.Relation

/-! The search through a forest against a flat reading of it: all leaves from left to right, of these
the ones that are asked for, and of each name the first. Where the groups stand makes no difference. -/

namespace GuardedRun

/-- The first scenario of each name, in the order in which they stand. -/
def Scenario.firstOfEachName (scenarios : List Scenario) : List Scenario :=
  scenarios.eraseDupsBy fun a b => a.name == b.name

namespace Scenario

theorem firstOfEachName_cons (s : Scenario) (rest : List Scenario) :
    firstOfEachName (s :: rest) = s :: firstOfEachName (rest.filter fun t => t.name ≠ s.name) := by
  have hother (t : Scenario) : decide ((t.name == s.name) = false) = decide (t.name ≠ s.name) :=
    decide_eq_decide.mpr beq_eq_false_iff_ne
  simp only [firstOfEachName, List.eraseDupsBy_cons, hother]

theorem firstOfEachName_sublist : (scenarios : List Scenario) →
    (firstOfEachName scenarios).Sublist scenarios
  | [] => List.Sublist.refl []
  | s :: rest => by
    rw [firstOfEachName_cons]
    exact ((firstOfEachName_sublist _).trans List.filter_sublist).cons_cons s
termination_by scenarios => scenarios.length
decreasing_by exact Nat.lt_succ_of_le (List.length_filter_le _ rest)

end Scenario

namespace ScenarioNode

/-- A forest bears a leaf, at whatever depth. -/
inductive Bears : List ScenarioNode → Scenario → Prop
  | top {forest s} (mem : scenario s ∈ forest) : Bears forest s
  | inside {forest name children s} (mem : group name children ∈ forest) (deeper : Bears children s) :
    Bears forest s

/-- A run of neighbours is put into a group of its own. -/
def Gathers (forest gathered : List ScenarioNode) : Prop :=
  ∃ name before inner after, forest = before ++ inner ++ after ∧
    gathered = before ++ group name inner :: after

/-- One forest becomes the other by gathering neighbours into groups and dissolving groups. -/
def Regrouped : List ScenarioNode → List ScenarioNode → Prop := Relation.EqvGen Gathers

variable {forest other : List ScenarioNode} {s : Scenario}

theorem forestLeaves_eq_flatMap (forest : List ScenarioNode) :
    forestLeaves forest = forest.flatMap leaves := by
  induction forest with
  | nil => rfl
  | cons node rest ih => rw [forestLeaves, ih, List.flatMap_cons]

theorem Bears.mono (h : Bears forest s) (hsub : forest ⊆ other) : Bears other s := by
  cases h with
  | top mem => exact .top (hsub mem)
  | inside mem deeper => exact .inside (hsub mem) deeper

mutual

theorem bears_of_mem_leaves : ∀ node : ScenarioNode, s ∈ node.leaves → Bears [node] s
  | .scenario t, h => by
    rw [leaves, List.mem_singleton] at h
    rw [h]
    exact .top List.mem_cons_self
  | .group name children, h => by
    rw [leaves] at h
    exact .inside List.mem_cons_self (bears_of_mem_forestLeaves children h)

theorem bears_of_mem_forestLeaves : ∀ forest : List ScenarioNode, s ∈ forestLeaves forest → Bears forest s
  | [], h => by cases h
  | node :: rest, h => by
    rw [forestLeaves, List.mem_append] at h
    rcases h with hfirst | hrest
    · exact (bears_of_mem_leaves node hfirst).mono (by simp)
    · exact (bears_of_mem_forestLeaves rest hrest).mono (List.subset_cons_self node rest)

end

/-- The leaves of the flat list are those that stand somewhere in the forest. -/
theorem mem_forestLeaves : s ∈ forestLeaves forest ↔ Bears forest s := by
  constructor
  · exact bears_of_mem_forestLeaves forest
  · intro h
    induction h with
    | top mem =>
      rw [forestLeaves_eq_flatMap]
      exact List.mem_flatMap_of_mem mem (by rw [leaves]; exact List.mem_cons_self)
    | inside mem _ ih =>
      rw [forestLeaves_eq_flatMap]
      exact List.mem_flatMap_of_mem mem (by rw [leaves]; exact ih)

theorem mem_labels {name : ScenarioName} :
    name ∈ labels forest ↔ ∃ s, Bears forest s ∧ s.name = name := by
  simp only [labels, List.mem_map, mem_forestLeaves]

theorem Gathers.leaves_eq (h : Gathers forest other) : forestLeaves other = forestLeaves forest := by
  obtain ⟨name, before, inner, after, rfl, rfl⟩ := h
  rw [forestLeaves_append, forestLeaves, leaves, forestLeaves_append, forestLeaves_append,
    List.append_assoc]

theorem Gathers.between (h : Gathers forest other) (left right : List ScenarioNode) :
    Gathers (left ++ forest ++ right) (left ++ other ++ right) := by
  obtain ⟨name, before, inner, after, rfl, rfl⟩ := h
  exact ⟨name, left ++ before, inner, after ++ right, by simp, by simp⟩

namespace Regrouped

theorem trans {third : List ScenarioNode} (h : Regrouped forest other) (h' : Regrouped other third) :
    Regrouped forest third :=
  Relation.EqvGen.trans _ _ _ h h'

theorem symm (h : Regrouped forest other) : Regrouped other forest := Relation.EqvGen.symm _ _ h

theorem between (h : Regrouped forest other) (left right : List ScenarioNode) :
    Regrouped (left ++ forest ++ right) (left ++ other ++ right) := by
  induction h with
  | rel a b h => exact .rel _ _ (h.between left right)
  | refl a => exact .refl _
  | symm a b _ ih => exact ih.symm
  | trans a b c _ _ ih ih' => exact ih.trans ih'

/-- A group is no more than what is in it. -/
theorem dissolve (name : String) (children : List ScenarioNode) :
    Regrouped [group name children] children := by
  have hgathers : Gathers children [group name children] := ⟨name, [], children, [], by simp, by simp⟩
  exact symm (.rel _ _ hgathers)

theorem leaves_eq (h : Regrouped forest other) : forestLeaves forest = forestLeaves other := by
  induction h with
  | rel a b h => exact h.leaves_eq.symm
  | refl a => rfl
  | symm a b _ ih => exact ih.symm
  | trans a b c _ _ ih ih' => exact ih.trans ih'

end Regrouped

mutual

theorem regrouped_leaves : ∀ node : ScenarioNode, Regrouped [node] (node.leaves.map scenario)
  | .scenario s => .refl _
  | .group name children => by
    rw [leaves]
    exact (Regrouped.dissolve name children).trans (regrouped_forestLeaves children)

/-- Every forest can be laid flat. -/
theorem regrouped_forestLeaves :
    ∀ forest : List ScenarioNode, Regrouped forest ((forestLeaves forest).map scenario)
  | [] => .refl _
  | node :: rest => by
    have hfirst := (regrouped_leaves node).between [] rest
    have hrest := (regrouped_forestLeaves rest).between (node.leaves.map scenario) []
    rw [List.append_nil, List.append_nil] at hrest
    rw [forestLeaves, List.map_append]
    exact hfirst.trans hrest

end

/-- Regrouping is what keeps the leaves in their order, no less and no more. -/
theorem regrouped_iff : Regrouped forest other ↔ forestLeaves forest = forestLeaves other := by
  refine ⟨Regrouped.leaves_eq, fun h => ?_⟩
  have hflat := regrouped_forestLeaves other
  rw [← h] at hflat
  exact (regrouped_forestLeaves forest).trans hflat.symm

/-- A pass over the leaves adds to what it found the first of each further name that is asked for. -/
theorem foldl_take (names : NameSet .scenario) (found leaves : List Scenario) :
    leaves.foldl (take names) found = found ++ Scenario.firstOfEachName
      (leaves.filter fun s => s.name ∈ names ∧ ¬ Scenario.isNamedIn found s.name) := by
  induction leaves generalizing found with
  | nil => exact (List.append_nil found).symm
  | cons s rest ih =>
    rw [List.foldl_cons, ih, List.filter_cons]
    by_cases hs : s.name ∈ names ∧ ¬ Scenario.isNamedIn found s.name
    · have htake : take names found s = found ++ [s] := if_pos hs
      -- whoever comes later must bear a name that is neither found before nor the one of `s`
      have hlater (t : Scenario) :
          decide (t.name ∈ names ∧ ¬ Scenario.isNamedIn (found ++ [s]) t.name) =
            (decide (t.name ≠ s.name) &&
              decide (t.name ∈ names ∧ ¬ Scenario.isNamedIn found t.name)) := by
        rw [← Bool.decide_and, decide_eq_decide, Scenario.isNamedIn_iff, Scenario.isNamedIn_iff,
          List.map_append, List.mem_append, List.map_singleton, List.mem_singleton]
        tauto
      rw [htake, if_pos (decide_eq_true hs), Scenario.firstOfEachName_cons, List.filter_filter,
        List.append_assoc, List.singleton_append]
      simp only [hlater]
    · have htake : take names found s = found := if_neg hs
      rw [htake, if_neg (by rw [decide_eq_false hs]; exact Bool.false_ne_true)]

end ScenarioNode

open ScenarioNode

theorem findScenarios_eq (forest : List ScenarioNode) (names : NameSet .scenario) :
    findScenarios forest names =
      Scenario.firstOfEachName ((forestLeaves forest).filter fun s => s.name ∈ names) := by
  have hnone (s : Scenario) :
      decide (s.name ∈ names ∧ ¬ Scenario.isNamedIn [] s.name) = decide (s.name ∈ names) := by
    simp [Scenario.isNamedIn]
  rw [findScenarios, collectForest_eq, foldl_take, List.nil_append]
  simp only [hnone]

/-- A search through a forest, of whatever depth and width, is a flat pass: of the leaves from left to
right those that are asked for, and of each name the first. -/
theorem findScenarios_flat (forest : List ScenarioNode) (names : NameSet .scenario) :
    findScenarios forest names =
        Scenario.firstOfEachName ((forestLeaves forest).filter fun s => s.name ∈ names) ∧
      ((findScenarios forest names).map (·.name)).Nodup ∧
      (∀ s ∈ findScenarios forest names, s.name ∈ names ∧ Bears forest s) ∧
      (∀ name ∈ names, name ∉ (findScenarios forest names).map (·.name) ↔
        ∀ s, Bears forest s → s.name ≠ name) ∧
      (∀ other, Regrouped forest other → findScenarios other names = findScenarios forest names) ∧
      ((findScenarios forest names).map (·.name.text) ++
        missingNames names (findScenarios forest names)).Perm (names.names.map (·.text)) := by
  have hpicks := NameSet.picks_findScenarios names forest
  refine ⟨findScenarios_eq forest names, hpicks.nodup, fun s hs => ?_, fun name hname => ?_,
    fun other hother => ?_, hpicks.partition⟩
  · rw [findScenarios_eq] at hs
    have hkept := (Scenario.firstOfEachName_sublist _).subset hs
    rw [List.mem_filter, decide_eq_true_eq] at hkept
    exact ⟨hkept.2, mem_forestLeaves.mp hkept.1⟩
  · rw [hpicks.mem_iff, mem_labels]
    constructor
    · intro hmissing s hs heq
      exact hmissing ⟨hname, s, hs, heq⟩
    · rintro hnone ⟨-, s, hs, heq⟩
      exact hnone s hs heq
  · rw [findScenarios_eq, findScenarios_eq, hother.leaves_eq]

def Name.rollout : ScenarioName := ⟨"Rollout", by decide +kernel⟩

def Name.rollback : ScenarioName := ⟨"Rollback", by decide +kernel⟩

def Name.reboot : ScenarioName := ⟨"Reboot", by decide +kernel⟩

/-- Groups in groups, one of them empty, and two leaves of one name in different groups. -/
def releaseForest : List ScenarioNode :=
  [.group "Production" [.group "Idle" [], .scenario ⟨⟨"s-1"⟩, .rollout⟩],
    .scenario ⟨⟨"s-2"⟩, .rollback⟩, .group "Staging" [.scenario ⟨⟨"s-3"⟩, .rollout⟩]]

/-- The same leaves in other groups. -/
def stagedForest : List ScenarioNode :=
  [.scenario ⟨⟨"s-1"⟩, .rollout⟩,
    .group "All" [.group "Later" [.scenario ⟨⟨"s-2"⟩, .rollback⟩, .scenario ⟨⟨"s-3"⟩, .rollout⟩]]]

def releaseNames : NameSet .scenario := .ofList [.rollout, .reboot]

theorem release_found_flat : Name.reboot ∈ releaseNames ∧ Regrouped releaseForest stagedForest ∧
    findScenarios stagedForest releaseNames = [⟨⟨"s-1"⟩, .rollout⟩] ∧
    ∀ s, Bears releaseForest s → s.name ≠ .reboot := by
  obtain ⟨hflat, -, -, hmissing, hregrouped, -⟩ := findScenarios_flat releaseForest releaseNames
  have hasked : Name.reboot ∈ releaseNames := by decide +kernel
  have hsame : Regrouped releaseForest stagedForest := regrouped_iff.mpr rfl
  have hfound : findScenarios releaseForest releaseNames = [⟨⟨"s-1"⟩, .rollout⟩] := by
    rw [hflat]
    decide +kernel
  refine ⟨hasked, hsame, by rw [hregrouped _ hsame, hfound], (hmissing _ hasked).mp ?_⟩
  rw [hfound]
  decide +kernel

end GuardedRun
