import GuardedRun.Orchestration.Intersection

/-! Intersecting scenario lists by name. What two lists share is the same from either side as far as
names go; the scenarios themselves, their order and their repetitions are those of the second list. -/

namespace GuardedRun.Scenario

variable {a b : List Scenario}

theorem count_intersect (a b : List Scenario) (s : Scenario) :
    (intersect a b).count s = if s.name ∈ a.map (·.name) then b.count s else 0 := by
  by_cases h : s.name ∈ a.map (·.name)
  · have hnamed : isNamedIn a s.name = true := isNamedIn_iff.mpr h
    rw [if_pos h, intersect]
    exact List.count_filter hnamed
  · rw [if_neg h, List.count_eq_zero]
    exact fun hs => h (mem_intersect.mp hs).2

/-- A part of the second list in which the scenarios with a shared name stand as often as in that list,
and no others, is the intersection: nothing is left open, not even the order. -/
theorem eq_intersect_of_count {kept : List Scenario} (hpart : kept.Sublist b)
    (hcount : ∀ s, kept.count s = if s.name ∈ a.map (·.name) then b.count s else 0) :
    kept = intersect a b := by
  have hnamed : ∀ s ∈ kept, isNamedIn a s.name = true := by
    intro s hs
    have hpos : 0 < kept.count s := List.count_pos_iff.mpr hs
    rw [hcount s] at hpos
    by_cases hname : s.name ∈ a.map (·.name)
    · exact isNamedIn_iff.mpr hname
    · rw [if_neg hname] at hpos
      exact absurd hpos (Nat.lt_irrefl 0)
  have hinside : kept.Sublist (intersect a b) := by
    have hfiltered := hpart.filter fun s => isNamedIn a s.name
    rwa [List.filter_eq_self.mpr hnamed] at hfiltered
  have hperm : kept.Perm (intersect a b) := by
    apply List.perm_iff_count.mpr
    intro s
    rw [hcount s, count_intersect]
  exact hinside.eq_of_length hperm.length_eq

/-- What two lists of unique names share is read off them in either order. -/
theorem names_intersect_perm (ha : (a.map (·.name)).Nodup) (hb : (b.map (·.name)).Nodup) :
    ((intersect a b).map (·.name)).Perm ((intersect b a).map (·.name)) := by
  rw [List.perm_ext_iff_of_nodup (nodup_names_intersect a hb) (nodup_names_intersect b ha)]
  intro name
  rw [mem_names_intersect, mem_names_intersect, and_comm]

theorem intersect_intersect (a b c : List Scenario) :
    intersect b (intersect a c) = c.filter fun s => isNamedIn b s.name && isNamedIn a s.name :=
  List.filter_filter

/-- The laws of intersecting by name, whatever names and ids are repeated in the lists: the result is the
part of the second list with the names of the first one; from the other side the same names result, and
the same number of times each where no list repeats one; and several intersections may be made in any
order and more than once. -/
theorem intersect_keeps_shared (a b : List Scenario) :
    (∀ kept, kept = intersect a b ↔ kept.Sublist b ∧
      ∀ s, kept.count s = if s.name ∈ a.map (·.name) then b.count s else 0) ∧
    (∀ name, name ∈ (intersect a b).map (·.name) ↔ name ∈ (intersect b a).map (·.name)) ∧
    ((a.map (·.name)).Nodup → (b.map (·.name)).Nodup →
      ((intersect a b).map (·.name)).Perm ((intersect b a).map (·.name))) ∧
    (∀ c, intersect b (intersect a c) = intersect a (intersect b c)) ∧
    ∀ c, intersect a (intersect a c) = intersect a c := by
  refine ⟨fun kept => ⟨?_, fun h => eq_intersect_of_count h.1 h.2⟩, fun name => ?_,
    names_intersect_perm, fun c => ?_, fun c => ?_⟩
  · rintro rfl
    exact ⟨intersect_sublist a b, count_intersect a b⟩
  · rw [mem_names_intersect, mem_names_intersect, and_comm]
  · rw [intersect_intersect, intersect_intersect]
    apply List.filter_congr
    intro s _
    exact Bool.and_comm _ _
  · rw [intersect_intersect]
    apply List.filter_congr
    intro s _
    exact Bool.and_self _

def signedIn : ScenarioName := ⟨"Signed in", by decide +kernel⟩

def signedOut : ScenarioName := ⟨"Signed out", by decide +kernel⟩

def searched : ScenarioName := ⟨"Searched", by decide +kernel⟩

/-- Scenarios with the ids that a tree gives them. -/
def treeListing : List Scenario := [⟨⟨"s-1"⟩, signedIn⟩, ⟨⟨"s-2"⟩, searched⟩]

/-- Scenarios of a test set, which numbers them anew: one id stands for different scenarios. -/
def setListing : List Scenario := [⟨⟨"s-1"⟩, searched⟩, ⟨⟨"s-2"⟩, signedOut⟩, ⟨⟨"s-3"⟩, signedIn⟩]

theorem listings_share_names : (treeListing.map (·.name)).Nodup ∧ (setListing.map (·.name)).Nodup ∧
    ((intersect treeListing setListing).map (·.name)).Perm
      ((intersect setListing treeListing).map (·.name)) ∧
    intersect treeListing setListing = [⟨⟨"s-1"⟩, searched⟩, ⟨⟨"s-3"⟩, signedIn⟩] := by
  have htree : (treeListing.map (·.name)).Nodup := by decide +kernel
  have hset : (setListing.map (·.name)).Nodup := by decide +kernel
  obtain ⟨-, -, hperm, -, -⟩ := intersect_keeps_shared treeListing setListing
  exact ⟨htree, hset, hperm htree hset, by decide +kernel⟩

end GuardedRun.Scenario
