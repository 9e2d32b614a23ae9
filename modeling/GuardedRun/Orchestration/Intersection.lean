import GuardedRun.Engine.Handle

/-!
Intersection of scenario lists. Scenarios are told apart by name: the same scenario has one id in
the project's tree and another in a test set.
-/

namespace GuardedRun.Scenario

/-- Some scenario of the list has the name. -/
def isNamedIn (scenarios : List Scenario) (name : ScenarioName) : Bool :=
  scenarios.any (·.name = name)

/-- The scenarios of `b` whose names occur in `a`. -/
def intersect (a b : List Scenario) : List Scenario := b.filter fun s => isNamedIn a s.name

theorem isNamedIn_iff {scenarios : List Scenario} {name : ScenarioName} :
    isNamedIn scenarios name ↔ name ∈ scenarios.map (·.name) := by
  simp [isNamedIn]

theorem mem_intersect {a b : List Scenario} {s : Scenario} :
    s ∈ intersect a b ↔ s ∈ b ∧ s.name ∈ a.map (·.name) := by
  simp [intersect, isNamedIn_iff]

theorem intersect_sublist (a b : List Scenario) : (intersect a b).Sublist b := List.filter_sublist

theorem mem_names_intersect {a b : List Scenario} {name : ScenarioName} :
    name ∈ (intersect a b).map (·.name) ↔ name ∈ a.map (·.name) ∧ name ∈ b.map (·.name) := by
  constructor
  · intro h
    obtain ⟨s, hs, rfl⟩ := List.mem_map.mp h
    obtain ⟨hb, ha⟩ := mem_intersect.mp hs
    exact ⟨ha, List.mem_map_of_mem hb⟩
  · intro ⟨ha, hb⟩
    obtain ⟨s, hs, rfl⟩ := List.mem_map.mp hb
    exact List.mem_map_of_mem (mem_intersect.mpr ⟨hs, ha⟩)

theorem nodup_names_intersect (a : List Scenario) {b : List Scenario} (hb : (b.map (·.name)).Nodup) :
    ((intersect a b).map (·.name)).Nodup :=
  ((intersect_sublist a b).map _).nodup hb

end GuardedRun.Scenario
