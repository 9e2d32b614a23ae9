import GuardedRun.Proofs.Course
import GuardedRun.Rehearsal.Engine

/-! The order of the calls of an orchestration. Whatever the engine answers, the calls come in four
phases: planning, changes, work, and a restore that undoes every change that was tried. -/

namespace GuardedRun

variable {σ : Type} {env : Environment σ} {w : World σ}

open Session Guard

namespace Call

def isOpening : Call → Bool
  | openProject _ => true
  | _ => false

/-- The calls that change the items and test sets, with the read that goes before an assignment. -/
def isChange : Call → Bool
  | createTestSet _ _ | addScenarios _ _ | itemTestSet _ | setItemTestSet _ (some _)
  | setItemActive _ false => true
  | _ => false

/-- The calls that start work, ask how far it is, or cancel it. -/
def isWork : Call → Bool
  | run _ | regenerateReport _ | progress _ | cancel _ => true
  | _ => false

/-- The item that a call gives a test set to or takes it from. -/
def assigned? : Call → Option Item
  | setItemTestSet item _ => some item
  | _ => none

end Call

/-- The first assignment of an item directly follows a read of what it held, the only one; and no read
is there for anything else, though a failing one ends the calls. -/
structure ReadsFirst (xs : List Exchange) : Prop where
  preceded : ∀ pre item testSet a post, xs = pre ++ ⟨.setItemTestSet item testSet, a⟩ :: post →
    (∀ x ∈ pre, x.call.assigned? ≠ some item) →
      ∃ before former, pre = before ++ [⟨.itemTestSet item, .ok former⟩]
  once : ∀ item, xs.countP (·.call = .itemTestSet item) ≤ 1
  followed : ∀ pre item a post, xs = pre ++ ⟨.itemTestSet item, a⟩ :: post →
    (∃ testSet b after, post = ⟨.setItemTestSet item (some testSet), b⟩ :: after) ∨
      a.isOk = false ∧ post = []

namespace Guard

variable {g : Guard} {xs : List Exchange}

theorem Blocks.kinds (h : g.Blocks xs) :
    ∀ x ∈ xs, x.call.isRedirect = true ∨ x.call.isChange = true := by
  induction h with
  | nil g => exact nofun
  | cons first rest ih =>
    intro x hx
    rcases List.mem_append.mp hx with hx | hx
    · cases first <;> simp at hx <;> rcases hx with rfl | rfl <;> simp [Call.isRedirect, Call.isChange]
    · exact ih x hx

theorem Block.mem_reassigned {item : Item} (h : g.Block xs) :
    item ∈ (g.rememberAll xs).reassigned ↔
      item ∈ g.reassigned ∨ ∃ x ∈ xs, x.call.assigned? = some item := by
  cases h with
  | firstAssign other former testSet a fresh =>
    change item ∈ (g.formerTestSets ++ [(other, former)]).map (·.1) ↔ _
    rw [List.map_append, List.mem_append]
    simp [Call.assigned?, reassigned, eq_comm]
  | nextAssign other testSet a known =>
    change item ∈ g.reassigned ↔ _
    simp only [List.mem_singleton, exists_eq_left, Call.assigned?, Option.some.injEq]
    constructor
    · exact .inl
    · intro h
      rcases h with hi | rfl
      · exact hi
      · exact known
  | deactivate other a =>
    have hsame : (g.rememberDeactivated other).formerTestSets = g.formerTestSets := by
      unfold rememberDeactivated
      split <;> rfl
    change item ∈ (g.rememberDeactivated other).formerTestSets.map (·.1) ↔ _
    rw [hsame]
    simp [Call.assigned?, reassigned]
  | redirectData | redirectReport | unread | uncreated | create =>
    change item ∈ g.reassigned ↔ _
    simp [Call.assigned?]

/-- An assignment inside a block, of an item that was not assigned yet, stands right after a read. -/
theorem Block.read_before {item : Item} {testSet : Option TestSet} {pre post : List Exchange}
    {a : Except EngineError Unit} (h : g.Block (pre ++ ⟨.setItemTestSet item testSet, a⟩ :: post))
    (hi : item ∉ g.reassigned) : ∃ former, pre = [⟨.itemTestSet item, .ok former⟩] := by
  generalize hx : pre ++ ⟨.setItemTestSet item testSet, a⟩ :: post = xs at h
  have hmem : (⟨.setItemTestSet item testSet, a⟩ : Exchange) ∈ xs := by
    rw [← hx]
    exact List.mem_append_right _ List.mem_cons_self
  cases h with
  | redirectData | redirectReport | unread | deactivate | uncreated | create =>
    simp at hmem
  | nextAssign other testSet' b known =>
    have hother : item = other := by
      simp at hmem
      exact hmem.1.1
    exact absurd (hother ▸ known) hi
  | firstAssign other former testSet' b fresh =>
    rcases pre with _ | ⟨first, _ | ⟨second, rest⟩⟩
    · cases hx
    · cases hx
      exact ⟨former, rfl⟩
    · have hlength := congrArg List.length hx
      simp at hlength

theorem Blocks.preceded (h : g.Blocks xs) {item : Item} {testSet : Option TestSet}
    {pre post : List Exchange} {a : Except EngineError Unit} (hi : item ∉ g.reassigned)
    (hx : xs = pre ++ ⟨.setItemTestSet item testSet, a⟩ :: post)
    (hpre : ∀ x ∈ pre, x.call.assigned? ≠ some item) :
    ∃ before former, pre = before ++ [⟨.itemTestSet item, .ok former⟩] := by
  induction h generalizing pre with
  | nil g => simp at hx
  | @cons g block ys first rest ih =>
    -- the assignment stands in a later block, or in this one
    rcases append_split hx with ⟨pre', rfl, hys⟩ | ⟨tail, rfl, -⟩
    · have hfresh : item ∉ (g.rememberAll block).reassigned := by
        intro hmem
        rcases first.mem_reassigned.mp hmem with hmem | ⟨x, hx, hassigned⟩
        · exact hi hmem
        · exact hpre x (List.mem_append_left _ hx) hassigned
      obtain ⟨before, former, rfl⟩ :=
        ih hfresh hys fun x hx => hpre x (List.mem_append_right _ hx)
      exact ⟨block ++ before, former, (List.append_assoc _ _ _).symm⟩
    · obtain ⟨former, rfl⟩ := first.read_before hi
      exact ⟨[], former, rfl⟩

/-- A read of what an item holds is the first one, and the item is remembered unless the read fails
and ends the work. -/
theorem Block.of_read {item : Item} (h : g.Block xs)
    (hread : 0 < xs.countP (·.call = .itemTestSet item)) :
    item ∉ g.reassigned ∧ xs.countP (·.call = .itemTestSet item) = 1 ∧
      ((∃ e, xs = [⟨.itemTestSet item, .error e⟩]) ∨ item ∈ (g.rememberAll xs).reassigned) := by
  have hsame {other : Item} (h : 0 < if other = item then 1 else 0) : other = item :=
    Decidable.byContradiction fun hne => by simp [hne] at h
  cases h with
  | redirectData | redirectReport | deactivate | uncreated | create | nextAssign =>
    simp at hread
  | unread other e fresh =>
    obtain rfl := hsame (by simpa using hread)
    exact ⟨fresh, by simp, .inl ⟨e, rfl⟩⟩
  | firstAssign other former testSet a fresh =>
    obtain rfl := hsame (by simpa [List.countP_cons] using hread)
    refine ⟨fresh, by simp, .inr ?_⟩
    rw [(Block.firstAssign other former testSet a fresh).mem_reassigned]
    exact .inr ⟨_, List.mem_cons_of_mem _ List.mem_cons_self, rfl⟩

theorem halting_right {xs ys : List Exchange} (hhalt : ∀ x ∈ (xs ++ ys).dropLast, x.succeeded) :
    ∀ x ∈ ys.dropLast, x.succeeded := by
  intro x hx
  have hne : ys ≠ [] := by
    intro h
    obtain rfl := h
    cases hx
  apply hhalt
  rw [List.dropLast_append_of_ne_nil hne]
  exact List.mem_append_right _ hx

theorem Block.read_followed {item : Item} {pre post : List Exchange}
    {a : Except EngineError (Option TestSet)} (h : g.Block (pre ++ ⟨.itemTestSet item, a⟩ :: post)) :
    (∃ testSet b, post = [⟨.setItemTestSet item (some testSet), b⟩]) ∨
      a.isOk = false ∧ post = [] := by
  generalize hx : pre ++ ⟨.itemTestSet item, a⟩ :: post = xs at h
  have hmem : (⟨.itemTestSet item, a⟩ : Exchange) ∈ xs := by
    rw [← hx]
    exact List.mem_append_right _ List.mem_cons_self
  cases h with
  | redirectData | redirectReport | deactivate | uncreated | create | nextAssign =>
    simp at hmem
  | unread other e fresh =>
    rcases pre with _ | ⟨first, rest⟩
    · cases hx
      exact .inr ⟨rfl, rfl⟩
    · have hlength := congrArg List.length hx
      simp at hlength
  | firstAssign other former testSet b fresh =>
    rcases pre with _ | ⟨first, _ | ⟨second, rest⟩⟩
    · cases hx
      exact .inl ⟨testSet, b, rfl⟩
    · cases hx
    · have hlength := congrArg List.length hx
      simp at hlength

theorem Blocks.followed (h : g.Blocks xs) (hhalt : ∀ x ∈ xs.dropLast, x.succeeded) {item : Item}
    {pre post : List Exchange} {a : Except EngineError (Option TestSet)}
    (hx : xs = pre ++ ⟨.itemTestSet item, a⟩ :: post) :
    (∃ testSet b after, post = ⟨.setItemTestSet item (some testSet), b⟩ :: after) ∨
      a.isOk = false ∧ post = [] := by
  induction h generalizing pre with
  | nil g => simp at hx
  | @cons g block ys first rest ih =>
    have hrest : ∀ x ∈ ys.dropLast, x.succeeded := halting_right hhalt
    rcases append_split hx with ⟨pre', -, hys⟩ | ⟨tail, rfl, rfl⟩
    · exact ih hrest hys
    · rcases first.read_followed with ⟨testSet, b, rfl⟩ | ⟨hfailed, rfl⟩
      · exact .inl ⟨testSet, b, ys, rfl⟩
      · rcases ys with _ | ⟨y, ys⟩
        · exact .inr ⟨hfailed, rfl⟩
        -- a call after the failed read would make the latter one that had to succeed
        · have hsucceeded := hhalt ⟨.itemTestSet item, a⟩ (by simp)
          rw [Exchange.succeeded_mk, hfailed] at hsucceeded
          cases hsucceeded

theorem Blocks.countP_read_le (h : g.Blocks xs) (hhalt : ∀ x ∈ xs.dropLast, x.succeeded)
    (item : Item) :
    xs.countP (·.call = .itemTestSet item) ≤ if item ∈ g.reassigned then 0 else 1 := by
  -- the bound drops to none at the block that reads the item, which remembers it
  induction h with
  | nil g => exact Nat.zero_le _
  | @cons g block ys first rest ih =>
    have hlater := ih (halting_right hhalt)
    rw [List.countP_append]
    rcases Nat.eq_zero_or_pos (block.countP (·.call = .itemTestSet item)) with hzero | hread
    · rw [hzero, Nat.zero_add]
      apply Nat.le_trans hlater
      by_cases hi : item ∈ g.reassigned
      · rw [if_pos (first.mem_reassigned.mpr (.inl hi))]
        exact Nat.zero_le _
      · rw [if_neg hi]
        split <;> omega
    · obtain ⟨hfresh, hone, hend⟩ := first.of_read hread
      rw [if_neg hfresh, hone]
      rcases hend with ⟨e, rfl⟩ | hremembered
      · -- the failed read is the last call of all
        have hys : ys = [] := by
          rcases ys with _ | ⟨y, ys⟩
          · rfl
          · have hfailed := hhalt ⟨.itemTestSet item, .error e⟩ (by simp)
            cases hfailed
        rw [hys]
        exact Nat.le_refl 1
      · rw [if_pos hremembered] at hlater
        omega

end Guard

/-- Under a guard that has seen no assignment, work that halts at a failure reads first. -/
theorem Guard.Carries.readsFirst {ε α : Type} {K : Call → Prop} {g : Guard} {t : Trace}
    {r : Except ε α × Guard} (h : Carries K g t r) (hg : g.formerTestSets = []) :
    ReadsFirst t.exchanges := by
  have hfresh (item : Item) : item ∉ g.reassigned := by
    rw [reassigned, hg]
    exact nofun
  constructor
  · intro pre item testSet a post hx hpre
    exact h.blocks.preceded (hfresh item) hx hpre
  · intro item
    have hle := h.blocks.countP_read_le h.halting item
    rwa [if_neg (hfresh item)] at hle
  · intro pre item a post hx
    exact h.blocks.followed h.halting hx

theorem Nap.exchanges {flag passed : Bool} {t : Trace} (h : Nap flag t passed) : t.exchanges = [] := by
  rw [Trace.exchanges, List.filterMap_eq_nil_iff]
  intro e he
  rcases h.kinds e he with ⟨n, rfl⟩ | rfl <;> rfl

/-- The calls about an execution that was started: queries, and then at most one cancellation. -/
inductive Awaited (execution : Execution) : List Exchange → Prop
  | queries {xs} (asked : ∀ x ∈ xs, x.call = .progress execution) : Awaited execution xs
  | cancelled {xs} (asked : ∀ x ∈ xs, x.call = .progress execution) (a) :
    Awaited execution (xs ++ [⟨.cancel execution, a⟩])

theorem Awaited.cons {execution : Execution} {xs : List Exchange} (h : Awaited execution xs) (a) :
    Awaited execution (⟨.progress execution, a⟩ :: xs) := by
  have hcons {xs : List Exchange} (asked : ∀ x ∈ xs, x.call = .progress execution) :
      ∀ x ∈ ⟨.progress execution, a⟩ :: xs, x.call = .progress execution :=
    List.forall_mem_cons.mpr ⟨rfl, asked⟩
  cases h with
  | queries asked => exact .queries (hcons asked)
  | cancelled asked b => exact .cancelled (hcons asked) b

theorem Watch.awaited {execution : Execution} {polling : Polling} {started rounds : Nat} {s : σ}
    {flag : Bool} {t : Trace} {o : Option (Except OrchestrationError Unit)}
    (h : Watch env execution polling started rounds s flag t o) : Awaited execution t.exchanges := by
  have hnone : ∀ x ∈ ([] : List Exchange), x.call = .progress execution := nofun
  have hcancel (a) : Awaited execution [⟨.cancel execution, a⟩] := .cancelled hnone a
  induction h with
  | unfollowed s flag => exact .queries hnone
  | interrupted rounds s a raised line => simpa using hcancel a
  | failed rounds s e raised => simpa using (Awaited.queries hnone).cons (.error e)
  | finished rounds s p raised line done => simpa using (Awaited.queries hnone).cons (.ok p)
  | late rounds s p raised a raised' line running passed => simpa using (hcancel a).cons (.ok p)
  | stopped rounds s p raised nap a raised' line running early woken =>
    simpa [woken.exchanges] using (hcancel a).cons (.ok p)
  | again rounds s p nap t o running early slept rest ih =>
    simpa [slept.exchanges] using ih.cons (.ok p)

/-- The calls of the work: none, or the one that starts it, and then those about its execution. -/
inductive Request.Working (request : Request) (c : Configuration) : List Exchange → Prop
  | idle : request.Working c []
  | refused (e) : request.Working c [request.triggered c (.error e)]
  | awaited {execution xs} (h : Awaited execution xs) :
    request.Working c (request.triggered c (.ok execution) :: xs)

theorem Task.Labour.working {ctx : Orchestration} {task : Task} {c : Configuration} {s : σ}
    {flag : Bool} {t : Trace} {o : Option (Except OrchestrationError Unit)}
    (h : Task.Labour env ctx task c s flag t o) : task.request.Working c t.exchanges := by
  cases h with
  | forestalled line => exact .idle
  | refused e raised => simpa using Request.Working.refused e
  | started execution raised line s' t o after watch =>
    simpa using Request.Working.awaited watch.awaited

namespace Guard

/-- The changes that undo everything a guard remembers. -/
def undoing (g : Guard) : List Call :=
  g.formerTestSets.map (fun (item, former) => .setItemTestSet item former) ++
    (if g.directoriesChanged then
      [.setDataDir g.configuration g.formerDataDir, .setReportDir g.configuration g.formerReportDir]
    else []) ++
    g.temporary.map (.deleteTestSet g.project) ++ g.deactivated.map (.setItemActive · true)

/-- Nothing has been changed under the guard yet. -/
structure Fresh (g : Guard) : Prop where
  directoriesChanged : g.directoriesChanged = false
  formerTestSets : g.formerTestSets = []
  temporary : g.temporary = []
  deactivated : g.deactivated = []

/-- Every change among some calls is undone by other calls, whether or not it succeeded. -/
structure Undone (g : Guard) (xs : List Exchange) (undo : List Call) : Prop where
  directories : ∀ x ∈ xs, x.call.isRedirect = true →
    .setDataDir g.configuration g.formerDataDir ∈ undo ∧
      .setReportDir g.configuration g.formerReportDir ∈ undo
  testSets : ∀ item testSet a, ⟨.setItemTestSet item testSet, a⟩ ∈ xs →
    ∃ former, ⟨.itemTestSet item, .ok former⟩ ∈ xs ∧ .setItemTestSet item former ∈ undo
  creations : ∀ project name testSet, ⟨.createTestSet project name, .ok testSet⟩ ∈ xs →
    .deleteTestSet g.project testSet ∈ undo
  activity : ∀ item active a, ⟨.setItemActive item active, a⟩ ∈ xs → .setItemActive item true ∈ undo

theorem rememberAll_of_mem {P : Guard → Prop} {x : Exchange} {xs : List Exchange} (g : Guard)
    (hkeep : ∀ (g : Guard) y, P g → P (g.remember y)) (hx : x ∈ xs)
    (hnew : ∀ g : Guard, P (g.remember x)) :
    P (g.rememberAll xs) := by
  -- what is remembered of the call stays remembered to the end
  have hkept (ys : List Exchange) (g : Guard) (h : P g) : P (g.rememberAll ys) := by
    induction ys generalizing g with
    | nil => exact h
    | cons y ys ih => exact ih _ (hkeep g y h)
  induction xs generalizing g with
  | nil => cases hx
  | cons y xs ih =>
    rcases List.mem_cons.mp hx with rfl | hx
    · exact hkept xs _ (hnew g)
    · exact ih (g.remember y) hx

/-- A guard forgets nothing. -/
theorem remember_keeps (g : Guard) (x : Exchange) :
    g.formerTestSets ⊆ (g.remember x).formerTestSets ∧ g.temporary ⊆ (g.remember x).temporary ∧
      g.deactivated ⊆ (g.remember x).deactivated ∧
      (g.directoriesChanged = true → (g.remember x).directoriesChanged = true) := by
  unfold remember
  split
  · exact ⟨List.Subset.refl _, List.Subset.refl _, List.Subset.refl _, fun _ => rfl⟩
  · exact ⟨List.Subset.refl _, List.Subset.refl _, List.Subset.refl _, fun _ => rfl⟩
  · exact ⟨List.subset_append_left _ _, List.Subset.refl _, List.Subset.refl _, id⟩
  · exact ⟨List.Subset.refl _, List.subset_append_left _ _, List.Subset.refl _, id⟩
  · unfold rememberDeactivated
    split
    · exact ⟨List.Subset.refl _, List.Subset.refl _, List.Subset.refl _, id⟩
    · exact ⟨List.Subset.refl _, List.Subset.refl _, List.subset_append_left _ _, id⟩
  · exact ⟨List.Subset.refl _, List.Subset.refl _, List.Subset.refl _, id⟩

theorem mem_rememberDeactivated (g : Guard) (item : Item) :
    item ∈ (g.rememberDeactivated item).deactivated := by
  unfold rememberDeactivated
  by_cases h : item ∈ g.deactivated
  · rw [if_pos h]
    exact h
  · rw [if_neg h]
    exact List.mem_append_right _ List.mem_cons_self

theorem exists_first_assignment {xs : List Exchange} {item : Item} {testSet : Option TestSet}
    {a : Except EngineError Unit} (h : ⟨.setItemTestSet item testSet, a⟩ ∈ xs) :
    ∃ pre testSet' a' post, xs = pre ++ ⟨.setItemTestSet item testSet', a'⟩ :: post ∧
      ∀ x ∈ pre, x.call.assigned? ≠ some item := by
  have hsome : (xs.find? (·.call.assigned? = some item)).isSome = true := by
    rw [List.find?_isSome]
    exact ⟨_, h, decide_eq_true rfl⟩
  obtain ⟨x, hx⟩ := Option.isSome_iff_exists.mp hsome
  obtain ⟨hassigned, pre, post, hparts, hpre⟩ := List.find?_eq_some_iff_append.mp hx
  obtain ⟨call, a'⟩ := x
  cases call <;> simp [Call.assigned?] at hassigned
  subst hassigned
  exact ⟨pre, _, a', post, hparts, fun x hx => by simpa using hpre x hx⟩

/-- What a guard remembers of changes that read first is enough to undo all of them. -/
theorem undone_undoing (g : Guard) {xs : List Exchange} (hread : ReadsFirst xs) :
    g.Undone xs (g.rememberAll xs).undoing := by
  constructor
  · intro x hx hredirect
    have hchanged : (g.rememberAll xs).directoriesChanged = true := by
      apply rememberAll_of_mem (P := fun g => g.directoriesChanged = true) g
        (fun g y => (g.remember_keeps y).2.2.2) hx
      intro g
      obtain ⟨call, a⟩ := x
      cases call <;> first | rfl | cases hredirect
    simp [undoing, hchanged]
  · intro item testSet a hx
    -- the first assignment of the item follows the read of what is to be given back
    obtain ⟨pre, testSet', a', post, rfl, hpre⟩ := exists_first_assignment hx
    obtain ⟨before, former, rfl⟩ := hread.preceded pre item testSet' a' post rfl hpre
    have hmem : (⟨.itemTestSet item, .ok former⟩ : Exchange) ∈
        before ++ [⟨.itemTestSet item, .ok former⟩] ++ ⟨.setItemTestSet item testSet', a'⟩ :: post :=
      List.mem_append_left _ (List.mem_append_right _ List.mem_cons_self)
    refine ⟨former, hmem, ?_⟩
    have hformer := rememberAll_of_mem (P := fun g => (item, former) ∈ g.formerTestSets) g
      (fun g y h => (g.remember_keeps y).1 h) hmem
      fun g => List.mem_append_right g.formerTestSets List.mem_cons_self
    simp only [undoing, List.mem_append, List.mem_map]
    exact .inl (.inl (.inl ⟨_, hformer, rfl⟩))
  · intro project name testSet hx
    have htemporary := rememberAll_of_mem (P := fun g => testSet ∈ g.temporary) g
      (fun g y h => (g.remember_keeps y).2.1 h) hx
      fun g => List.mem_append_right g.temporary List.mem_cons_self
    simp only [undoing, List.mem_append, List.mem_map, project_rememberAll]
    exact .inl (.inr ⟨_, htemporary, rfl⟩)
  · intro item active a hx
    have hdeactivated := rememberAll_of_mem (P := fun g => item ∈ g.deactivated) g
      (fun g y h => (g.remember_keeps y).2.2.1 h) hx fun g => g.mem_rememberDeactivated item
    simp only [undoing, List.mem_append, List.mem_map]
    exact .inr ⟨_, hdeactivated, rfl⟩

/-- The changes among some calls, and nothing but reads of test sets beside them. -/
structure Comprises (xs : List Exchange) (changes : List Call) : Prop where
  changes : (xs.map (·.call)).filter Call.isMutation = changes
  reads : ∀ x ∈ xs, x.call.isMutation = true ∨ ∃ item, x.call = .itemTestSet item

theorem Comprises.append {xs ys : List Exchange} {cs ds : List Call} (hx : Comprises xs cs)
    (hy : Comprises ys ds) : Comprises (xs ++ ys) (cs ++ ds) := by
  constructor
  · rw [List.map_append, List.filter_append, hx.changes, hy.changes]
  · intro x h
    exact (List.mem_append.mp h).elim (hx.reads x) (hy.reads x)

theorem Returned.comprises {item : Item} {former : Option TestSet} {xs : List Exchange}
    {failures : List RestoreFailure} {still : Option TestSet}
    (h : Returned item former xs failures still) : Comprises xs [.setItemTestSet item former] := by
  cases h with
  | refused | given =>
    exact ⟨rfl, by simp [Call.isMutation]⟩
  | cleared | held | unverified =>
    exact ⟨rfl, by simp [Call.isMutation]⟩

theorem ReturnedAll.comprises {former : List (Item × Option TestSet)} {xs : List Exchange}
    {failures : List RestoreFailure} {held : List (Item × TestSet)}
    (h : ReturnedAll former xs failures held) :
    Comprises xs (former.map fun (item, former) => .setItemTestSet item former) := by
  induction h with
  | nil => exact ⟨rfl, nofun⟩
  | cons first next ih => exact first.comprises.append ih

theorem Reset.comprises {g : Guard} {xs : List Exchange} {failures : List RestoreFailure}
    (h : g.Reset xs failures) : Comprises xs (if g.directoriesChanged then
      [.setDataDir g.configuration g.formerDataDir, .setReportDir g.configuration g.formerReportDir]
    else []) := by
  cases h with
  | untouched unchanged =>
    rw [unchanged]
    exact ⟨rfl, nofun⟩
  | tried changed a b =>
    rw [changed]
    exact ⟨rfl, by simp [Call.isMutation]⟩

theorem Tried.comprises {ι : Type} {call : ι → Call}
    {report : (i : ι) → Except EngineError (call i).Reply → List RestoreFailure} {is : List ι}
    {xs : List Exchange} {failures : List RestoreFailure} (h : Tried call report is xs failures)
    (hcall : ∀ i, (call i).isMutation = true) : Comprises xs (is.map call) := by
  induction h with
  | nil => exact ⟨rfl, nofun⟩
  | cons i a next ih =>
    constructor
    · rw [List.map_cons, List.filter_cons, if_pos (hcall i), ih.changes, List.map_cons]
    · exact List.forall_mem_cons.mpr ⟨.inl (hcall i), ih.reads⟩

/-- A restore undoes all that is remembered, in its order, whatever fails on the way. -/
theorem Restores.comprises {g : Guard} {xs : List Exchange} {failures : List RestoreFailure}
    (h : g.Restores xs failures) : Comprises xs g.undoing := by
  cases h with
  | all testSets directories deletions activations =>
    exact ((testSets.comprises.append directories.comprises).append
      (deletions.comprises fun _ => rfl)).append (activations.comprises fun _ => rfl)

end Guard

namespace Request

/-- The calls before anything is guarded: reads, and at most one opening of the project. -/
structure Planning (request : Request) (xs : List Exchange) : Prop where
  kinds : ∀ x ∈ xs, x.call.isRead = true ∨ x.call = .openProject request.project
  opened : xs.countP (·.call.isOpening) ≤ 1

/-- The calls of an orchestration in their phases. Without a guard there is planning only. With one,
the directories come before the items, work is started only if no change failed, and the restore
undoes all that was tried. -/
inductive Protocol (request : Request) : List Exchange → Prop
  | unbegun {planning} (plans : request.Planning planning)
    (unread : ∀ c path, ⟨.reportDir c, .ok path⟩ ∉ planning) : request.Protocol planning
  | begun {planning redirects changes work restoring} (g : Guard) (fresh : g.Fresh)
    (plans : request.Planning planning)
    (redirected : ∀ x ∈ redirects, x.call.isRedirect = true)
    (changed : ∀ x ∈ changes, x.call.isChange = true)
    (read : ReadsFirst (redirects ++ changes))
    (works : request.Working g.configuration work)
    (earned : work ≠ [] → ∀ x ∈ redirects ++ changes, x.succeeded)
    (restores : Guard.Comprises restoring (g.rememberAll (redirects ++ changes)).undoing)
    (undone : g.Undone (redirects ++ changes) (restoring.map (·.call))) :
    request.Protocol (planning ++ [⟨.dataDir g.configuration, .ok g.formerDataDir⟩,
      ⟨.reportDir g.configuration, .ok g.formerReportDir⟩] ++ (redirects ++ changes) ++ work ++
        restoring)

theorem Planning.append {request : Request} {xs ys : List Exchange} (hx : request.Planning xs)
    (hy : ∀ y ∈ ys, y.call.isRead = true) : request.Planning (xs ++ ys) := by
  constructor
  · intro x h
    exact (List.mem_append.mp h).elim (hx.kinds x) fun h => .inl (hy x h)
  · have hnone : ys.countP (·.call.isOpening) = 0 := by
      rw [List.countP_eq_zero]
      intro y h hopening
      have hread := hy y h
      obtain ⟨call, a⟩ := y
      cases call <;> cases hopening
      cases hread
    rw [List.countP_append, hnone]
    exact hx.opened

theorem planning_of_opening {request : Request} {xs : List Exchange}
    (h : Opening request.project xs) : request.Planning xs := by
  cases h with
  | listed a => exact ⟨by simp [Call.isRead], by simp [Call.isOpening]⟩
  | opened projects a => exact ⟨by simp [Call.isRead], by simp [Call.isOpening]⟩

/-- What comes before the reads of the directories is planning without a successful such read. -/
theorem Preparing.planning {request : Request} {xs : List Exchange}
    {directories : Option (Path × Path)} (h : request.Preparing xs directories) :
    ∃ c ys zs, xs = ys ++ zs ∧ request.Planning ys ∧ Readings c zs directories ∧
      ∀ c path, ⟨.reportDir c, .ok path⟩ ∉ ys := by
  obtain @⟨xs, ys, zs, directories, c, hopening, hlooks, hreadings⟩ := h
  refine ⟨c, xs ++ ys, zs, rfl, ?_, hreadings, ?_⟩
  · exact (planning_of_opening hopening).append fun y hy => (hlooks y hy).1
  · intro c' path hmem
    rcases List.mem_append.mp hmem with hmem | hmem
    · cases hopening <;> simp at hmem
    · cases (hlooks _ hmem).2

theorem Prepared.facts {ctx : Orchestration} {request : Request} {xs : List Exchange} {task : Task}
    {g : Guard} (h : request.Prepared ctx xs task g) :
    task.request = request ∧ g.Fresh ∧ ∃ ys, xs = ys ++ [⟨.dataDir g.configuration,
      .ok g.formerDataDir⟩, ⟨.reportDir g.configuration, .ok g.formerReportDir⟩] := by
  cases h with
  | all data report opened required planned =>
    refine ⟨?_, ⟨rfl, rfl, rfl, rfl⟩, _, rfl⟩
    cases planned <;> rfl

end Request

namespace Task

variable {ctx : Orchestration} {task : Task} {g g' : Guard} {s : σ} {flag : Bool}

theorem Altering.change_kinds {redirection alteration : Trace}
    {r : Except OrchestrationError Unit} (h : Altering task g redirection alteration r) :
    ∀ x ∈ alteration.exchanges, x.call.isChange = true := by
  intro x hx
  have hmem : x ∈ (redirection ++ alteration).exchanges := by
    rw [Trace.exchanges_append]
    exact List.mem_append_right _ hx
  rcases h.carries.blocks.kinds x hmem with hredirect | hchange
  · rw [(h.changes x hx).not_redirect] at hredirect
    cases hredirect
  · exact hchange

theorem Region.phases {t : Trace} {o : Option (Except OrchestrationError Unit × Guard)}
    (h : Region env ctx task g s flag t o) (hg : g.Fresh) :
    ∃ redirects changes work, t.exchanges = redirects ++ changes ++ work ∧
      (∀ x ∈ redirects, x.call.isRedirect = true) ∧ (∀ x ∈ changes, x.call.isChange = true) ∧
      ReadsFirst (redirects ++ changes) ∧ task.request.Working g.configuration work ∧
      (work ≠ [] → ∀ x ∈ redirects ++ changes, x.succeeded) ∧
      ∀ r g', o = some (r, g') → g' = g.rememberAll (redirects ++ changes) := by
  cases h with
  | failed redirection alteration e altering =>
    have hread := altering.carries.readsFirst hg.formerTestSets
    rw [Trace.exchanges_append] at hread
    refine ⟨_, _, [], by rw [List.append_nil, Trace.exchanges_append], altering.redirects,
      altering.change_kinds, hread, .idle, fun hne => absurd rfl hne, fun r g' ho => ?_⟩
    cases ho
    rw [Trace.exchanges_append]
  | worked redirection alteration labour o altering labours =>
    have hread := altering.carries.readsFirst hg.formerTestSets
    have hfaultless := altering.carries.faultless rfl
    rw [Trace.exchanges_append] at hread hfaultless
    refine ⟨_, _, _, by rw [Trace.exchanges_append, Trace.exchanges_append], altering.redirects,
      altering.change_kinds, hread, labours.working, fun _ => hfaultless, fun r g' ho => ?_⟩
    obtain ⟨r', -, hr⟩ := Option.map_eq_some_iff.mp ho
    cases hr
    rw [Trace.exchanges_append]

end Task

theorem Request.Readings.kinds {c : Configuration} {zs : List Exchange}
    {directories : Option (Path × Path)} (h : Readings c zs directories) :
    ∀ z ∈ zs, z.call.isRead = true := by
  cases h <;> simp [Call.isRead]

theorem Request.Preparing.planning_of_read {request : Request} {xs ys : List Exchange} {g : Guard}
    (h : request.Preparing xs (some (g.formerDataDir, g.formerReportDir)))
    (hx : xs = ys ++ [⟨.dataDir g.configuration, .ok g.formerDataDir⟩,
      ⟨.reportDir g.configuration, .ok g.formerReportDir⟩]) : request.Planning ys := by
  obtain ⟨c, ys', zs, hparts, hplanning, hreadings, -⟩ := h.planning
  cases hreadings with
  | both data report =>
    rw [hx] at hparts
    obtain ⟨hys, -⟩ := List.append_inj' hparts rfl
    rw [hys]
    exact hplanning

theorem Guard.Undone.mono {g : Guard} {xs : List Exchange} {undo undo' : List Call}
    (h : g.Undone xs undo) (hsub : undo ⊆ undo') : g.Undone xs undo' where
  directories x hx hredirect := (h.directories x hx hredirect).imp (hsub ·) (hsub ·)
  testSets item testSet a hx := by
    obtain ⟨former, hread, hundo⟩ := h.testSets item testSet a hx
    exact ⟨former, hread, hsub hundo⟩
  creations project name testSet hx := hsub (h.creations project name testSet hx)
  activity item active a hx := hsub (h.activity item active a hx)

theorem Course.protocol {ctx : Orchestration} {request : Request} {s : σ} {flag : Bool} {t : Trace}
    {r : Except OrchestrationError Outcome} (h : Course env ctx request s flag t (some r)) :
    request.Protocol t.exchanges := by
  generalize ho : some r = o at h
  cases h with
  | unprepared planning e awake preparing =>
    obtain ⟨c, ys, zs, hparts, hplanning, hreadings, hunread⟩ := preparing.planning
    apply Request.Protocol.unbegun
    · rw [hparts]
      exact hplanning.append hreadings.kinds
    · intro c' path hmem
      rw [hparts, List.mem_append] at hmem
      rcases hmem with hmem | hmem
      · exact hunread c' path hmem
      · cases hreadings <;> simp at hmem
  | unfinished => cases ho
  | finished planning work restoration line task g result g' failures awake preparing prepared
      region restored =>
    obtain ⟨htask, hfresh, ys, hys⟩ := prepared.facts
    obtain ⟨redirects, changes, labour, hwork, hredirects, hchanges, hread, hlabour, hearned, hg'⟩ :=
      region.phases hfresh
    have hplanning := preparing.planning_of_read hys
    have hrestores := restored.restores.comprises
    -- the guard that is restored remembers the changes of the region and nothing else
    rw [hg' result g' rfl] at hrestores
    have hundo : (g.rememberAll (redirects ++ changes)).undoing ⊆
        restoration.exchanges.map (·.call) := by
      rw [← hrestores.changes]
      exact List.filter_sublist.subset
    have hundone := (Guard.undone_undoing g hread).mono hundo
    rw [htask] at hlabour
    have hall := Request.Protocol.begun g hfresh hplanning hredirects hchanges hread hlabour hearned
      hrestores hundone
    rw [← hys] at hall
    simp only [Trace.exchanges_append, Trace.exchanges_noted, List.append_nil, hwork]
    simp only [List.append_assoc] at hall ⊢
    exact hall

namespace Call

theorem isWork_of_isRead {c : Call} (h : c.isRead = true) : c.isWork = false := by
  cases c <;> first | rfl | cases h

theorem isWork_of_isRedirect {c : Call} (h : c.isRedirect = true) : c.isWork = false := by
  cases c <;> first | rfl | cases h

theorem isWork_of_isChange {c : Call} (h : c.isChange = true) : c.isWork = false := by
  cases c <;> first | rfl | cases h

theorem isWork_of_isMutation {c : Call} (h : c.isMutation = true) : c.isWork = false := by
  cases c <;> first | rfl | cases h

theorem isTrigger_of_not_isWork {c : Call} (h : c.isWork = false) : c.isTrigger = false := by
  cases c <;> first | rfl | cases h

end Call

theorem Request.Planning.idle {request : Request} {xs : List Exchange}
    (h : request.Planning xs) : ∀ x ∈ xs, x.call.isWork = false := by
  intro x hx
  rcases h.kinds x hx with hread | hopen
  · exact Call.isWork_of_isRead hread
  · rw [hopen]
    rfl

theorem Guard.Comprises.idle {xs : List Exchange} {changes : List Call}
    (h : Guard.Comprises xs changes) : ∀ x ∈ xs, x.call.isWork = false := by
  intro x hx
  rcases h.reads x hx with hmutation | ⟨item, hread⟩
  · exact Call.isWork_of_isMutation hmutation
  · rw [hread]
    rfl

theorem countP_trigger_eq_zero {xs : List Exchange} (h : ∀ x ∈ xs, x.call.isTrigger = false) :
    xs.countP (·.call.isTrigger) = 0 := by
  rw [List.countP_eq_zero]
  intro x hx
  rw [h x hx]
  exact Bool.false_ne_true

theorem Awaited.kinds {execution : Execution} {xs : List Exchange} (h : Awaited execution xs) :
    ∀ x ∈ xs, x.call = .progress execution ∨ x.call = .cancel execution := by
  cases h with
  | queries asked => exact fun x hx => .inl (asked x hx)
  | cancelled asked a =>
    intro x hx
    rcases List.mem_append.mp hx with hx | hx
    · exact .inl (asked x hx)
    · exact .inr (List.mem_singleton.mp hx ▸ rfl)

theorem Awaited.countP_trigger {execution : Execution} {xs : List Exchange}
    (h : Awaited execution xs) : xs.countP (·.call.isTrigger) = 0 := by
  apply countP_trigger_eq_zero
  intro x hx
  rcases h.kinds x hx with hcall | hcall <;> rw [hcall] <;> rfl

theorem Request.Working.countP_trigger_le {request : Request} {c : Configuration}
    {xs : List Exchange} (h : request.Working c xs) : xs.countP (·.call.isTrigger) ≤ 1 := by
  cases h with
  | idle => exact Nat.zero_le 1
  | refused e => exact List.countP_le_length
  | awaited h =>
    rw [List.countP_cons, h.countP_trigger]
    split <;> omega

theorem Request.Protocol.countP_trigger_le {request : Request} {xs : List Exchange}
    (h : request.Protocol xs) : xs.countP (·.call.isTrigger) ≤ 1 := by
  have hidle {ys : List Exchange} (hy : ∀ y ∈ ys, y.call.isWork = false) :
      ys.countP (·.call.isTrigger) = 0 :=
    countP_trigger_eq_zero fun y h => Call.isTrigger_of_not_isWork (hy y h)
  cases h with
  | unbegun plans unread =>
    rw [hidle plans.idle]
    exact Nat.zero_le 1
  | begun g fresh plans redirected changed read works earned restores undone =>
    have hredirects := hidle fun x hx => Call.isWork_of_isRedirect (redirected x hx)
    have hchanges := hidle fun x hx => Call.isWork_of_isChange (changed x hx)
    have hwork := works.countP_trigger_le
    simp only [List.countP_append, hidle plans.idle, hredirects, hchanges,
      hidle restores.idle]
    simpa [Call.isTrigger] using hwork

/-- An orchestration that returns made its calls in the order of the protocol, and started work once
at most. -/
theorem orchestrate_protocol (env : Environment σ) (ctx : Orchestration) (request : Request)
    (w w' : World σ) (r : Except OrchestrationError Outcome)
    (h : Session.run (request.orchestrate ctx).run env w = (some r, w')) :
    ∃ events, w'.events = w.events ++ events ∧
      request.Protocol (events.filterMap Event.exchange?) ∧
      (events.filterMap Event.exchange?).countP (·.call.isTrigger) ≤ 1 := by
  have htraces : Traces env w (request.orchestrate ctx).run
    (Course env ctx request w.outside w.interrupted) := traces_orchestrate ctx request
  obtain ⟨t, hl, hcourse⟩ := htraces
  rw [h] at hl hcourse
  have hprotocol := hcourse.protocol
  exact ⟨t.events, hl.events, hprotocol, hprotocol.countP_trigger_le⟩

def Name.nightly : ConfigName := ⟨"Nightly", by decide +kernel⟩

def Name.login : ScenarioName := ⟨"Login", by decide +kernel⟩

/-- A request for the login alone of a configuration. -/
def loginRequest : ExecutionRequest where
  project := ⟨"/work/shop"⟩
  configuration := .nightly
  testCases := ⟨[.login], List.pairwise_singleton _ _⟩
  testSet := none
  dataDir := ⟨"/tmp/data"⟩
  reportDir := ⟨"/tmp/reports"⟩

/-- A rehearsal with two items, one that runs the login and one that does not. -/
def Rehearsal.small : Rehearsal.Engine where
  store :=
    { openProjects := [⟨"p", "/work/shop"⟩]
      configurations := [⟨"c", "Nightly", "/data", "/reports",
        [⟨"i1", true, some "t1", 0⟩, ⟨"i2", true, some "t2", 1⟩]⟩]
      testSets := [⟨"t1", "Session", [⟨"s3", "Login"⟩, ⟨"s4", "Logout"⟩]⟩,
        ⟨"t2", "Catalogue", [⟨"s5", "Search"⟩]⟩]
      tree := [.scenario ⟨"s1", "Login"⟩, .scenario ⟨"s2", "Search"⟩] }

theorem rehearsal_protocol : ∃ r w',
    Session.run ((Request.execution loginRequest).orchestrate { rounds := 3 }).run
      Rehearsal.environment { outside := Rehearsal.small } = (some r, w') ∧
    ∃ events, w'.events = [] ++ events ∧
      (Request.execution loginRequest).Protocol (events.filterMap Event.exchange?) ∧
      (events.filterMap Event.exchange?).countP (·.call.isTrigger) ≤ 1 := by
  have hsome : (Session.run ((Request.execution loginRequest).orchestrate { rounds := 3 }).run
      Rehearsal.environment { outside := Rehearsal.small }).1.isSome = true := by decide +kernel
  generalize hresult : Session.run ((Request.execution loginRequest).orchestrate { rounds := 3 }).run
    Rehearsal.environment { outside := Rehearsal.small } = result at hsome ⊢
  rcases result with ⟨_ | r, w'⟩
  · cases hsome
  · exact ⟨r, w', rfl, orchestrate_protocol Rehearsal.environment { rounds := 3 }
      (.execution loginRequest) _ w' r hresult⟩

end GuardedRun
