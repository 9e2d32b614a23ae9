import GuardedRun.Orchestration.Locator
import Mathlib.Data.List.Perm.Basic

/-! Looking scenarios up by name. The walk through a forest is a pass over its leaves that takes each
requested name once; so comparing lengths tells whether a requested name labels no leaf, however often
a name occurs in the forest or in a list that is intersected with what was found. -/

namespace GuardedRun

namespace ScenarioNode

/-- Takes a scenario that is asked for by a name under which none was taken yet. -/
def take (names : NameSet .scenario) (found : List Scenario) (s : Scenario) : List Scenario :=
  if s.name ∈ names ∧ ¬ Scenario.isNamedIn found s.name then found ++ [s] else found

/-- The names that label the leaves of a forest. -/
def labels (forest : List ScenarioNode) : List ScenarioName := (forestLeaves forest).map (·.name)

mutual

/-- Going into groups where they stand is a pass over the leaves. -/
theorem collect_eq (names : NameSet .scenario) (found : List Scenario) :
    ∀ node : ScenarioNode, collect names found node = node.leaves.foldl (take names) found
  | .scenario s => rfl
  | .group _ children => by
    rw [collect, leaves]
    exact collectForest_eq names found children

theorem collectForest_eq (names : NameSet .scenario) (found : List Scenario) :
    ∀ forest : List ScenarioNode,
      collectForest names found forest = (forestLeaves forest).foldl (take names) found
  | [] => rfl
  | node :: rest => by
    rw [collectForest, forestLeaves, List.foldl_append, collect_eq names found node]
    exact collectForest_eq names _ rest

end

end ScenarioNode

namespace NameSet

variable {names : NameSet .scenario} {labels : List ScenarioName} {found : List Scenario}

/-- Some scenarios are one for each of the names that are among some labels. -/
structure Picks (names : NameSet .scenario) (labels : List ScenarioName)
    (found : List Scenario) : Prop where
  nodup : (found.map (·.name)).Nodup
  mem_iff : ∀ name, name ∈ found.map (·.name) ↔ name ∈ names ∧ name ∈ labels

theorem Picks.take (h : names.Picks labels found) (s : Scenario) :
    names.Picks (labels ++ [s.name]) (ScenarioNode.take names found s) := by
  unfold ScenarioNode.take
  by_cases hs : s.name ∈ names ∧ ¬ Scenario.isNamedIn found s.name
  · rw [if_pos hs]
    obtain ⟨hwanted, hnew⟩ := hs
    rw [Scenario.isNamedIn_iff] at hnew
    constructor
    · rw [List.map_append, List.nodup_append]
      refine ⟨h.nodup, List.pairwise_singleton _ _, fun a ha b hb hab => ?_⟩
      have hname : b = s.name := List.mem_singleton.mp hb
      rw [hab, hname] at ha
      exact hnew ha
    · intro name
      rw [List.map_append, List.mem_append, h.mem_iff, List.mem_append]
      constructor
      · rintro (⟨hname, hlabel⟩ | hname)
        · exact ⟨hname, .inl hlabel⟩
        · rw [List.mem_singleton.mp hname]
          exact ⟨hwanted, .inr List.mem_cons_self⟩
      · rintro ⟨hname, hlabel | hlabel⟩
        · exact .inl ⟨hname, hlabel⟩
        · exact .inr hlabel
  · rw [if_neg hs]
    refine ⟨h.nodup, fun name => ?_⟩
    rw [h.mem_iff, List.mem_append, List.mem_singleton]
    refine ⟨fun ⟨hname, hlabel⟩ => ⟨hname, .inl hlabel⟩, ?_⟩
    rintro ⟨hname, hlabel | rfl⟩
    · exact ⟨hname, hlabel⟩
    · -- the name is taken already, or it would be taken now
      have hnamed : Scenario.isNamedIn found s.name := by
        by_contra hnew
        exact hs ⟨hname, hnew⟩
      exact (h.mem_iff s.name).mp (Scenario.isNamedIn_iff.mp hnamed)

/-- What is found in a forest is one leaf for each requested name that labels a leaf. -/
theorem picks_findScenarios (names : NameSet .scenario) (forest : List ScenarioNode) :
    names.Picks (ScenarioNode.labels forest) (findScenarios forest names) := by
  have hpass (leaves : List Scenario) (labels : List ScenarioName) (found : List Scenario)
      (h : names.Picks labels found) :
      names.Picks (labels ++ leaves.map (·.name)) (leaves.foldl (ScenarioNode.take names) found) := by
    induction leaves generalizing labels found with
    | nil => simpa using h
    | cons s rest ih =>
      have hrest := ih _ _ (h.take s)
      rwa [List.append_assoc] at hrest
  have hempty : names.Picks [] [] := ⟨List.nodup_nil, by simp⟩
  rw [findScenarios, ScenarioNode.collectForest_eq]
  exact hpass _ [] [] hempty

/-- Where all requested names were found, what a list has of them is one of the found scenarios for
each requested name in the list. -/
theorem Picks.intersect (h : names.Picks labels found) (hall : ∀ name ∈ names, name ∈ labels)
    (inSet : List Scenario) :
    names.Picks (inSet.map (·.name)) (Scenario.intersect inSet found) := by
  refine ⟨Scenario.nodup_names_intersect inSet h.nodup, fun name => ?_⟩
  rw [Scenario.mem_names_intersect, h.mem_iff]
  constructor
  · intro ⟨hset, hname, _⟩
    exact ⟨hname, hset⟩
  · intro ⟨hname, hset⟩
    exact ⟨hset, hname, hall name hname⟩

namespace Picks

/-- Each requested name was found or is missing, and none is both or twice. -/
theorem partition (h : names.Picks labels found) :
    (found.map (·.name.text) ++ missingNames names found).Perm (names.names.map (·.text)) := by
  have hnames : names.names.Nodup := names.ascending.imp fun hlt heq => by
    rw [heq] at hlt
    exact String.lt_irrefl _ hlt
  have hfound : (found.map (·.name)).Perm
      (names.names.filter fun name => Scenario.isNamedIn found name) := by
    rw [List.perm_ext_iff_of_nodup h.nodup (hnames.filter _)]
    intro name
    rw [List.mem_filter, Scenario.isNamedIn_iff, h.mem_iff]
    exact ⟨fun ⟨hname, hlabel⟩ => ⟨hname, hname, hlabel⟩, fun ⟨_, hboth⟩ => hboth⟩
  -- the names that were found and those that were not make up all names
  have hsplit := List.filter_append_perm (fun name => Scenario.isNamedIn found name) names.names
  have hmissing : missingNames names found =
      (names.names.filter fun name => !Scenario.isNamedIn found name).map (·.text) := by
    simp [missingNames]
  have htexts : found.map (·.name.text) = (found.map (·.name)).map (·.text) := by
    rw [List.map_map]
    rfl
  rw [htexts, hmissing, ← List.map_append]
  exact ((hfound.append_right _).trans hsplit).map (·.text)

/-- Each requested name was found or is missing. -/
theorem length_add_missing (h : names.Picks labels found) :
    found.length + (missingNames names found).length = names.size := by
  have hlength := h.partition.length_eq
  rwa [List.length_append, List.length_map, List.length_map] at hlength

theorem mem_missing_iff (h : names.Picks labels found) (text : String) :
    text ∈ missingNames names found ↔ ∃ name ∈ names, name ∉ labels ∧ name.text = text := by
  simp only [missingNames, List.mem_map, List.mem_filter, decide_eq_true_eq]
  constructor
  · rintro ⟨name, ⟨hname, hmissing⟩, rfl⟩
    refine ⟨name, hname, fun hlabel => hmissing ?_, rfl⟩
    exact Scenario.isNamedIn_iff.mpr ((h.mem_iff name).mpr ⟨hname, hlabel⟩)
  · rintro ⟨name, hname, hlabel, rfl⟩
    refine ⟨name, ⟨hname, fun hnamed => hlabel ?_⟩, rfl⟩
    exact ((h.mem_iff name).mp (Scenario.isNamedIn_iff.mp hnamed)).2

/-- Too little is found just when a requested name is not among the labels. -/
theorem length_lt_iff (h : names.Picks labels found) :
    found.length < names.size ↔ ∃ name ∈ names, name ∉ labels := by
  have hcount := h.length_add_missing
  have hnone : (missingNames names found).length = 0 ↔ ¬ ∃ name ∈ names, name ∉ labels := by
    rw [List.length_eq_zero_iff, List.eq_nil_iff_forall_not_mem]
    constructor
    · rintro hnil ⟨name, hname, hlabel⟩
      exact hnil name.text ((h.mem_missing_iff _).mpr ⟨name, hname, hlabel, rfl⟩)
    · intro hall text htext
      obtain ⟨name, hname, hlabel, -⟩ := (h.mem_missing_iff text).mp htext
      exact hall ⟨name, hname, hlabel⟩
  constructor
  · intro hlt
    by_contra hall
    have hzero := hnone.mpr hall
    omega
  · intro hmissing
    have hpos : (missingNames names found).length ≠ 0 := fun hzero => hnone.mp hzero hmissing
    omega

end Picks

theorem ascending_missing (names : NameSet .scenario) (found : List Scenario) :
    (missingNames names found).Pairwise (· < ·) :=
  List.pairwise_map.mpr (names.ascending.filter _)

end NameSet

end GuardedRun
