import GuardedRun.Proofs.Contents
import GuardedRun.Proofs.Footprint
import GuardedRun.Proofs.Passage

/-! The test sets of an engine, and nothing else of it. Any call may fail after it took effect, the making of
a test set too, and an id is given out with no regard to those in use. -/

namespace GuardedRun

/-- A test set in the project where it stands. -/
structure Placed where
  project : ObjectId
  testSet : TestSet
  deriving DecidableEq

abbrev Shelf := List Placed

namespace Shelf

/-- The test sets of a project as the engine lists them. -/
def listed (sh : Shelf) (project : ObjectId) : List TestSet :=
  (sh.filter (·.project = project)).map (·.testSet)

/-- There is one test set more, anywhere among the others. -/
def Gains (sh sh' : Shelf) (made : Placed) : Prop :=
  ∃ before after, sh = before ++ after ∧ sh' = before ++ made :: after

/-- What is left after the test sets of an id were deleted from a project. -/
def without (sh : Shelf) (project id : ObjectId) : Shelf :=
  sh.filter fun s => ¬ (s.project = project ∧ s.testSet.id = id)

end Shelf

/-- A call takes effect on the test sets with a reply. -/
def Call.Stocks : (call : Call) → call.Reply → Shelf → Shelf → Prop
  | .createTestSet project name, testSet, sh, sh' =>
    testSet.name = name ∧ sh.Gains sh' ⟨project.id, testSet⟩
  | .deleteTestSet project testSet, _, sh, sh' => sh' = sh.without project.id testSet.id
  | .testSets project, read, sh, sh' => read = sh.listed project.id ∧ sh' = sh
  | _, _, sh, sh' => sh' = sh

/-- What an exchange does to the test sets. A call that fails has taken effect or not. -/
def Exchange.Stocks (x : Exchange) (sh sh' : Shelf) : Prop :=
  match x with
  | ⟨call, .ok reply⟩ => call.Stocks reply sh sh'
  | ⟨call, .error _⟩ => sh' = sh ∨ ∃ reply, call.Stocks reply sh sh'

/-- The call, failing, put a test set among the others. -/
def Exchange.Loses (x : Exchange) (sh sh' : Shelf) (project : Project) (made : TestSet) : Prop :=
  (∃ name e, x = ⟨.createTestSet project name, .error e⟩) ∧ sh.Gains sh' ⟨project.id, made⟩

namespace Shelf

variable {sh sh' : Shelf} {s made : Placed}

theorem mem_listed {project : ObjectId} {testSet : TestSet} :
    testSet ∈ sh.listed project ↔ ⟨project, testSet⟩ ∈ sh := by
  unfold listed
  rw [List.mem_map]
  constructor
  · rintro ⟨s, hs, rfl⟩
    obtain ⟨hmem, hproject⟩ := List.mem_filter.mp hs
    rwa [← of_decide_eq_true hproject]
  · intro h
    exact ⟨_, List.mem_filter.mpr ⟨h, decide_eq_true rfl⟩, rfl⟩

/-- A test set is listed as often as it is there. -/
theorem count_listed (sh : Shelf) (s : Placed) : (sh.listed s.project).count s.testSet = sh.count s := by
  induction sh with
  | nil => rfl
  | cons first rest ih =>
    rw [List.count_cons, ← ih, listed, listed, List.filter_cons]
    by_cases hproject : first.project = s.project
    · have hsame : first = s ↔ first.testSet = s.testSet := by
        rw [Placed.mk.injEq, and_iff_right hproject]
      simp [hproject, List.count_cons, hsame]
    · have hne : first ≠ s := fun h => hproject (congrArg Placed.project h)
      simp [hproject, hne]

theorem Gains.count_lt (h : sh.Gains sh' made) : sh.count made < sh'.count made := by
  obtain ⟨before, after, rfl, rfl⟩ := h
  rw [List.count_append, List.count_append, List.count_cons_self]
  omega

theorem Gains.count_le (h : sh.Gains sh' made) (s : Placed) : sh.count s ≤ sh'.count s := by
  obtain ⟨before, after, rfl, rfl⟩ := h
  have hsub : (before ++ after).Sublist (before ++ made :: after) :=
    (List.sublist_cons_self made after).append_left before
  exact hsub.count_le s

theorem Gains.filter_eq (h : sh.Gains sh' made) {keep : Placed → Bool} (hmade : keep made = false) :
    sh'.filter keep = sh.filter keep := by
  obtain ⟨before, after, rfl, rfl⟩ := h
  simp [List.filter_append, hmade]

theorem mem_without {project id : ObjectId} :
    s ∈ sh.without project id ↔ s ∈ sh ∧ ¬ (s.project = project ∧ s.testSet.id = id) := by
  rw [without, List.mem_filter, decide_eq_true_iff]

theorem count_without {project id : ObjectId} (h : ¬ (s.project = project ∧ s.testSet.id = id)) :
    (sh.without project id).count s = sh.count s :=
  List.count_filter (decide_eq_true h)

theorem filter_without {keep : Placed → Bool} {project id : ObjectId}
    (h : ∀ s : Placed, s.project = project → s.testSet.id = id → keep s = false) :
    (sh.without project id).filter keep = sh.filter keep := by
  unfold without
  rw [List.filter_filter]
  apply List.filter_congr
  intro s _
  by_cases hgone : s.project = project ∧ s.testSet.id = id
  · rw [h s hgone.1 hgone.2, Bool.false_and]
  · rw [decide_eq_true hgone, Bool.and_true]

end Shelf

namespace Exchange

variable {x : Exchange} {sh sh' : Shelf}

/-- A call changes nothing, or makes one test set, or deletes those of an id from a project. -/
theorem Stocks.effect (h : x.Stocks sh sh') : sh' = sh ∨
    (∃ project name made, x.call = .createTestSet project name ∧ sh.Gains sh' ⟨project.id, made⟩ ∧
      (x.created? = some made ∨ x.Loses sh sh' project made)) ∨
    ∃ project testSet, x.call = .deleteTestSet project testSet ∧
      sh' = sh.without project.id testSet.id := by
  obtain ⟨call, a⟩ := x
  cases a with
  | ok reply =>
    cases call with
    | createTestSet project name =>
      have hgains : sh.Gains sh' ⟨project.id, reply⟩ := h.2
      exact .inr (.inl ⟨project, name, reply, rfl, hgains, .inl rfl⟩)
    | deleteTestSet project testSet => exact .inr (.inr ⟨project, testSet, rfl, h⟩)
    | testSets project => exact .inl h.2
    | _ => exact .inl h
  | error e =>
    rcases h with rfl | ⟨reply, htakes⟩
    · exact .inl rfl
    · cases call with
      | createTestSet project name =>
        have hgains : sh.Gains sh' ⟨project.id, reply⟩ := htakes.2
        exact .inr (.inl ⟨project, name, reply, rfl, hgains, .inr ⟨⟨name, e, rfl⟩, hgains⟩⟩)
      | deleteTestSet project testSet => exact .inr (.inr ⟨project, testSet, rfl, htakes⟩)
      | testSets project => exact .inl htakes.2
      | _ => exact .inl htakes

end Exchange

namespace Shelf

variable {sh sh' : Shelf} {xs : List Exchange}

/-- Of a test set that is not deleted there are never fewer. -/
theorem count_le_of_passes (h : Passes Exchange.Stocks sh xs sh') {s : Placed}
    (hspared : ∀ x ∈ xs, ∀ project testSet, x.call = .deleteTestSet project testSet →
      ¬ (s.project = project.id ∧ s.testSet.id = testSet.id)) :
    sh.count s ≤ sh'.count s := by
  induction h with
  | nil sh => exact Nat.le_refl _
  | @cons sh sh₁ sh' x xs first rest ih =>
    obtain ⟨hx, hrest⟩ := List.forall_mem_cons.mp hspared
    have hstep : sh.count s ≤ sh₁.count s := by
      rcases first.effect with rfl | ⟨project, name, made, -, hgains, -⟩ | ⟨project, testSet, hcall, rfl⟩
      · exact Nat.le_refl _
      · exact hgains.count_le s
      · exact Nat.le_of_eq (count_without (hx project testSet hcall)).symm
    exact Nat.le_trans hstep (ih hrest)

/-- Where no test set is made, there are none that there were not before. -/
theorem subset_of_passes (h : Passes Exchange.Stocks sh xs sh')
    (huncreating : ∀ x ∈ xs, x.call.isCreation = false) : sh' ⊆ sh := by
  induction h with
  | nil sh => exact List.Subset.refl _
  | @cons sh sh₁ sh' x xs first rest ih =>
    obtain ⟨hx, hrest⟩ := List.forall_mem_cons.mp huncreating
    have hstep : sh₁ ⊆ sh := by
      rcases first.effect with rfl | ⟨project, name, made, hcall, -⟩ | ⟨project, testSet, -, rfl⟩
      · exact List.Subset.refl _
      · rw [hcall] at hx
        cases hx
      · exact List.filter_sublist.subset
    exact List.Subset.trans (ih hrest) hstep

/-- What was deleted is not there, unless it is made again. -/
theorem deleted_of_passes (h : Passes Exchange.Stocks sh xs sh')
    (huncreating : ∀ x ∈ xs, x.call.isCreation = false) {project : Project} {testSet : TestSet}
    (hdeleted : ⟨.deleteTestSet project testSet, .ok ()⟩ ∈ xs) {s : Placed} (hs : s ∈ sh') :
    ¬ (s.project = project.id ∧ s.testSet.id = testSet.id) := by
  obtain ⟨before, after, rfl⟩ := List.append_of_mem hdeleted
  obtain ⟨sh₁, -, hrest⟩ := passes_append.mp h
  obtain ⟨sh₂, hdelete, hafter⟩ := passes_cons.mp hrest
  have hgone : sh₂ = sh₁.without project.id testSet.id := hdelete
  have hmem : s ∈ sh₂ := subset_of_passes hafter
    (fun x hx => huncreating x (List.mem_append_right _ (List.mem_cons_of_mem _ hx))) hs
  rw [hgone] at hmem
  exact (mem_without.mp hmem).2

/-- The test sets of a kind are the same as long as none of the kind is made or deleted. -/
theorem filter_of_passes {keep : Placed → Bool}
    (h : Passes (fun x sh sh' => x.Stocks sh sh' ∧
      ∀ project made, x.Loses sh sh' project made → keep ⟨project.id, made⟩ = false) sh xs sh')
    (hmade : ∀ x ∈ xs, ∀ project name made, x.call = .createTestSet project name →
      x.created? = some made → keep ⟨project.id, made⟩ = false)
    (hdeleted : ∀ x ∈ xs, ∀ project testSet, x.call = .deleteTestSet project testSet →
      ∀ s : Placed, s.project = project.id → s.testSet.id = testSet.id → keep s = false) :
    sh'.filter keep = sh.filter keep := by
  induction h with
  | nil sh => rfl
  | @cons sh sh₁ sh' x xs first rest ih =>
    obtain ⟨hmade₁, hmade⟩ := List.forall_mem_cons.mp hmade
    obtain ⟨hdeleted₁, hdeleted⟩ := List.forall_mem_cons.mp hdeleted
    obtain ⟨hstocks, hlost⟩ := first
    have hstep : sh₁.filter keep = sh.filter keep := by
      rcases hstocks.effect with rfl | ⟨project, name, made, hcall, hgains, htold | hloses⟩ |
        ⟨project, testSet, hcall, rfl⟩
      · rfl
      · exact hgains.filter_eq (hmade₁ project name made hcall htold)
      · exact hgains.filter_eq (hlost project made hloses)
      · exact filter_without (hdeleted₁ project testSet hcall)
    rw [ih hmade hdeleted, hstep]

end Shelf

end GuardedRun
