import GuardedRun.Proofs.Refusal
import GuardedRun.Proofs.Recovery
import GuardedRun.Proofs.Memory

/-! What an orchestration may touch. Whatever the engine answers, the only things changed are the
configuration that was found by its name, the items that were listed for it and found active, and the
test sets that were made along the way. -/

namespace GuardedRun

variable {σ : Type} {env : Environment σ} {w : World σ}

open Session Guard

namespace Call

/-- The configuration that a call redirects or starts work on. -/
def configured? : Call → Option Configuration
  | setDataDir c _ | setReportDir c _ | run c | regenerateReport c => some c
  | _ => none

/-- The item that a call writes to. -/
def written? : Call → Option Item
  | setItemTestSet item _ | setItemActive item _ => some item
  | _ => none

/-- The test set that a call deletes. -/
def deleted? : Call → Option TestSet
  | deleteTestSet _ testSet => some testSet
  | _ => none

/-- The test set that a call fills or deletes. -/
def handled? : Call → Option TestSet
  | addScenarios testSet _ | deleteTestSet _ testSet => some testSet
  | _ => none

theorem written_of_isRedirect {c : Call} (h : c.isRedirect = true) : c.written? = none := by
  cases c <;> first | rfl | cases h

end Call

/-- In a joined list, what is not in the first part comes after all of that. -/
theorem split_later {α : Type} {xs ys before after : List α} {x : α}
    (h : xs ++ ys = before ++ x :: after) (hx : x ∉ xs) :
    ∃ rest, before = xs ++ rest ∧ ys = rest ++ x :: after := by
  rcases append_split h with hlater | ⟨rest, rfl, -⟩
  · exact hlater
  · exact absurd (List.mem_append_right _ List.mem_cons_self) hx

theorem mem_deactivated {xs : List Exchange} {item : Item}
    (h : item ∈ xs.filterMap (·.call.deactivated?)) : ∃ a, ⟨.setItemActive item false, a⟩ ∈ xs := by
  obtain ⟨⟨call, a⟩, hx, hdeactivated⟩ := List.mem_filterMap.mp h
  cases call with
  | setItemActive i active =>
    cases active with
    | true => cases hdeactivated
    | false =>
      cases hdeactivated
      exact ⟨a, hx⟩
  | _ => cases hdeactivated

/-- The items that were picked are listed ones that were found active. -/
theorem Picked.reported {items active : List Item} {xs : List Exchange} (h : Picked items xs active) :
    ∀ item ∈ active, item ∈ items ∧ ⟨.itemActive item, .ok true⟩ ∈ xs := by
  induction h with
  | nil => exact nofun
  | @cons item rest xs others active next ih =>
    have hothers : ∀ i ∈ others, i ∈ item :: rest ∧
        ⟨.itemActive i, .ok true⟩ ∈ (⟨.itemActive item, .ok active⟩ : Exchange) :: xs :=
      fun i hi => (ih i hi).imp (List.mem_cons_of_mem _) (List.mem_cons_of_mem _)
    cases active with
    | false => exact hothers
    | true => exact List.forall_mem_cons.mpr ⟨⟨List.mem_cons_self, List.mem_cons_self⟩, hothers⟩

theorem Examined.reported {requested : List Scenario} {items : List Item} {xs : List Exchange}
    {actions : List ItemAction} (h : Examined requested items xs actions) :
    ∀ item ∈ actions.map ItemAction.item, item ∈ items ∧ ⟨.itemActive item, .ok true⟩ ∈ xs := by
  induction h with
  | nil => exact nofun
  | inactive next ih =>
    exact fun i hi => (ih i hi).imp (List.mem_cons_of_mem _) (List.mem_cons_of_mem _)
  | active current next ih =>
    rw [List.map_cons, ItemAction.item_keeping]
    refine List.forall_mem_cons.mpr ⟨⟨List.mem_cons_self, List.mem_cons_self⟩, fun i hi => ?_⟩
    exact (ih i hi).imp (List.mem_cons_of_mem _) fun hmem =>
      List.mem_cons_of_mem _ (List.mem_append_right _ hmem)

/-- An item that was listed for a configuration and found active. -/
def Configuration.Reports (c : Configuration) (xs : List Exchange) (item : Item) : Prop :=
  ∃ items, ⟨.items c, .ok items⟩ ∈ xs ∧ item ∈ items ∧ ⟨.itemActive item, .ok true⟩ ∈ xs

theorem Configuration.Reports.mono {c : Configuration} {xs ys : List Exchange} {item : Item}
    (h : c.Reports xs item) (hsub : xs ⊆ ys) : c.Reports ys item := by
  obtain ⟨items, hlisted, hmem, hactive⟩ := h
  exact ⟨items, hsub hlisted, hmem, hsub hactive⟩

/-- A task changes no items but those that planning found listed and active. -/
theorem Request.Planned.reported {ctx : Orchestration} {request : Request} {project : Project}
    {c : Configuration} {xs : List Exchange} {task : Task}
    (h : Planned ctx project c request xs task) : ∀ item ∈ task.items, c.Reports xs item := by
  intro item hitem
  cases h with
  | @execution request xs ys requested plan testSets resolved devised =>
    have hsub : ys ⊆ xs ++ (ys ++ [⟨.testSets project, .ok testSets⟩]) :=
      fun x hx => List.mem_append_right _ (List.mem_append_left _ hx)
    refine Configuration.Reports.mono ?_ hsub
    generalize request.testSet = named at devised
    cases devised with
    | unfiltered empty => cases hitem
    | @perItem items zs actions some examined =>
      obtain ⟨hmem, hactive⟩ := examined.reported item hitem
      exact ⟨items, List.mem_cons_self, hmem, List.mem_cons_of_mem _ hactive⟩
    | @shared name _ testSet inSet scenarios items zs active found covered filled picked =>
      obtain ⟨hmem, hactive⟩ := picked.reported item hitem
      exact ⟨items, by simp, hmem, by simp [hactive]⟩
  | @report request xs assignment named =>
    generalize request.testSet = name at named
    cases named with
    | nothing => cases hitem
    | @found name testSets testSet items zs active found picked =>
      obtain ⟨hmem, hactive⟩ := picked.reported item hitem
      exact ⟨items, by simp, hmem, by simp [hactive]⟩

namespace Guard

variable {g : Guard} {xs : List Exchange}

/-- Changes redirect the guarded configuration and no other. -/
theorem Blocks.configured (h : g.Blocks xs) :
    ∀ x ∈ xs, ∀ c, x.call.configured? = some c → c = g.configuration := by
  induction h with
  | nil g => exact nofun
  | cons first rest ih =>
    rw [configuration_rememberAll] at ih
    refine List.forall_mem_append.mpr ⟨?_, ih⟩
    cases first <;> simp [Call.configured?]

/-- Changes fill no test set but one that they made. -/
theorem Blocks.filled (h : g.Blocks xs) {before after : List Exchange} {x : Exchange}
    {testSet : TestSet} (hx : xs = before ++ x :: after) (hhandled : x.call.handled? = some testSet) :
    testSet ∈ before.filterMap Exchange.created? := by
  induction h generalizing before with
  | nil g => simp at hx
  | @cons g block ys first rest ih =>
    rcases append_split hx with ⟨before', rfl, hys⟩ | ⟨tail, rfl, -⟩
    · rw [List.filterMap_append]
      exact List.mem_append_right _ (ih hys)
    · generalize hblock : before ++ x :: tail = block at first
      have hmem : x ∈ block := by
        rw [← hblock]
        exact List.mem_append_right _ List.mem_cons_self
      cases first with
      | redirectData | redirectReport | unread | firstAssign | nextAssign | deactivate | uncreated =>
        simp at hmem
        rcases hmem with rfl | rfl <;> cases hhandled
      | create name testSet' scenarios a =>
        -- the test set is filled right after it was made
        rcases before with _ | ⟨first, before⟩
        · cases hblock
          cases hhandled
        · obtain ⟨rfl, hrest⟩ := List.cons.inj hblock
          rcases before with _ | ⟨second, before⟩
          · cases hrest
            cases hhandled
            exact List.mem_cons_self
          · simp at hrest

/-- A call of a restore: it undoes something that the guard remembers, or reads what an item holds. -/
inductive Undoes (g : Guard) : Call → Prop
  | putBack (item former) (remembered : item ∈ g.reassigned) : g.Undoes (.setItemTestSet item former)
  | dataDir (path) : g.Undoes (.setDataDir g.configuration path)
  | reportDir (path) : g.Undoes (.setReportDir g.configuration path)
  | delete (testSet) (made : testSet ∈ g.temporary) : g.Undoes (.deleteTestSet g.project testSet)
  | reactivate (item) (remembered : item ∈ g.deactivated) : g.Undoes (.setItemActive item true)
  | look (item) : g.Undoes (.itemTestSet item)

theorem undoes_of_mem_undoing {c : Call} (h : c ∈ g.undoing) : g.Undoes c := by
  simp only [undoing, List.mem_append, List.mem_map] at h
  rcases h with ((⟨⟨item, former⟩, hmem, rfl⟩ | hdirectories) | ⟨testSet, hmem, rfl⟩) |
    ⟨item, hmem, rfl⟩
  · exact .putBack item former (List.mem_map.mpr ⟨_, hmem, rfl⟩)
  · split at hdirectories
    · rw [List.mem_cons, List.mem_singleton] at hdirectories
      rcases hdirectories with rfl | rfl
      · exact .dataDir _
      · exact .reportDir _
    · cases hdirectories
  · exact .delete testSet hmem
  · exact .reactivate item hmem

namespace Undoes

variable {c : Call}

theorem configured (h : g.Undoes c) {c' : Configuration} (hc : c.configured? = some c') :
    c' = g.configuration := by
  cases h with
  | dataDir path | reportDir path => exact (Option.some.inj hc).symm
  | _ => cases hc

theorem written (h : g.Undoes c) {item : Item} (hc : c.written? = some item) :
    item ∈ g.reassigned ∨ item ∈ g.deactivated := by
  cases h with
  | putBack i former remembered =>
    cases hc
    exact .inl remembered
  | reactivate i remembered =>
    cases hc
    exact .inr remembered
  | _ => cases hc

theorem handled (h : g.Undoes c) {testSet : TestSet} (hc : c.handled? = some testSet) :
    testSet ∈ g.temporary := by
  cases h with
  | delete t made =>
    cases hc
    exact made
  | _ => cases hc

theorem unmade {x : Exchange} (h : g.Undoes x.call) : x.created? = none := by
  obtain ⟨call, a⟩ := x
  cases h <;> rfl

theorem uncreating (h : g.Undoes c) : c.isCreation = false := by
  cases h <;> rfl

/-- With nothing made and nothing deactivated, nothing is deleted or reactivated. -/
theorem unshaped (h : g.Undoes c) (htemporary : g.temporary = []) (hdeactivated : g.deactivated = []) :
    c.isReshaping = false := by
  cases h with
  | delete t made =>
    rw [htemporary] at made
    cases made
  | reactivate i remembered =>
    rw [hdeactivated] at remembered
    cases remembered
  | _ => rfl

end Undoes

theorem deleted_undoing (g : Guard) : g.undoing.filterMap Call.deleted? = g.temporary := by
  have hnone {ι : Type} (f : ι → Call) (hf : ∀ i, (f i).deleted? = none) (is : List ι) :
      (is.map f).filterMap Call.deleted? = [] := by
    rw [List.filterMap_map, List.filterMap_eq_nil_iff]
    exact fun i _ => hf i
  have hdeleted : (g.temporary.map (.deleteTestSet g.project)).filterMap Call.deleted? =
      g.temporary := by
    rw [List.filterMap_map]
    exact List.filterMap_some
  unfold undoing
  rw [List.filterMap_append, List.filterMap_append, List.filterMap_append,
    hdeleted, hnone _ (fun _ => rfl), hnone _ (fun _ => rfl), List.append_nil]
  split <;> rfl

theorem Comprises.undoes {cs : List Call} (h : Comprises xs cs) (hcs : cs ⊆ g.undoing) :
    ∀ x ∈ xs, g.Undoes x.call := by
  intro x hx
  rcases h.reads x hx with hmutation | ⟨item, hread⟩
  · apply undoes_of_mem_undoing
    apply hcs
    rw [← h.changes]
    exact List.mem_filter.mpr ⟨List.mem_map_of_mem hx, hmutation⟩
  · rw [hread]
    exact .look item

/-- The deletions of a restore are those that it comprises. -/
theorem Comprises.deleted {cs : List Call} (h : Comprises xs cs) :
    xs.filterMap (·.call.deleted?) = cs.filterMap Call.deleted? := by
  have hmutation : ∀ c : Call, (if c.isMutation then c.deleted? else none) = c.deleted? := by
    intro c
    cases c <;> rfl
  rw [← h.changes, List.filterMap_filter, List.filterMap_map]
  simp only [hmutation, Function.comp_def]

end Guard

/-- Calls of the work neither write nor handle anything. -/
theorem Call.plain_of_isWork {c : Call} (h : c.isWork = true) :
    c.written? = none ∧ c.handled? = none ∧ c.deleted? = none ∧ c.isReshaping = false := by
  cases c <;> first | exact ⟨rfl, rfl, rfl, rfl⟩ | cases h

/-- Nothing is deleted or activated by a change. -/
theorem Guard.Blocks.keeps {g : Guard} {xs : List Exchange} (h : g.Blocks xs) :
    ∀ x ∈ xs, x.call.deleted? = none ∧ ∀ item, x.call ≠ .setItemActive item true := by
  intro x hx
  have hkind := h.kinds x hx
  obtain ⟨call, a⟩ := x
  cases call with
  | setItemActive item active =>
    refine ⟨rfl, fun i hi => ?_⟩
    cases hi
    simp [Call.isRedirect, Call.isChange] at hkind
  | deleteTestSet project testSet => simp [Call.isRedirect, Call.isChange] at hkind
  | _ =>
    refine ⟨rfl, fun i hi => ?_⟩
    cases hi

namespace Guard.Fresh

variable {g : Guard} {xs labour restoring before after : List Exchange}

/-- Test sets are filled and deleted only after they were made. -/
theorem handled (hg : g.Fresh) (hblocks : g.Blocks xs) (hwork : ∀ x ∈ labour, x.call.isWork = true)
    (hundo : ∀ x ∈ restoring, (g.rememberAll xs).Undoes x.call) {x : Exchange} {testSet : TestSet}
    (hx : xs ++ (labour ++ restoring) = before ++ x :: after)
    (hhandled : x.call.handled? = some testSet) :
    testSet ∈ before.filterMap Exchange.created? := by
  rcases append_split hx with ⟨rest, rfl, hrest⟩ | ⟨rest, hxs, -⟩
  -- after the changes only the restore handles a test set, and only one that the guard remembers
  · have hnot : x ∉ labour := by
      intro hmem
      rw [(Call.plain_of_isWork (hwork x hmem)).2.1] at hhandled
      cases hhandled
    obtain ⟨later, -, hrestoring⟩ := split_later hrest hnot
    have hmem : x ∈ restoring := by
      rw [hrestoring]
      exact List.mem_append_right _ List.mem_cons_self
    have htemporary := (hundo x hmem).handled hhandled
    rw [hg.temporary_rememberAll] at htemporary
    rw [List.filterMap_append]
    exact List.mem_append_left _ htemporary
  · exact hblocks.filled hxs hhandled

/-- An item is activated only after it was deactivated, or that was tried. -/
theorem reactivated (hg : g.Fresh) (hblocks : g.Blocks xs)
    (hwork : ∀ x ∈ labour, x.call.isWork = true)
    (hundo : ∀ x ∈ restoring, (g.rememberAll xs).Undoes x.call)
    {item : Item} {a : Except EngineError Unit}
    (hx : xs ++ (labour ++ restoring) = before ++ ⟨.setItemActive item true, a⟩ :: after) :
    ∃ a', ⟨.setItemActive item false, a'⟩ ∈ before := by
  obtain ⟨rest, rfl, hrest⟩ := split_later hx fun hmem => (hblocks.keeps _ hmem).2 item rfl
  obtain ⟨later, -, hrestoring⟩ := split_later hrest fun hmem => nomatch hwork _ hmem
  have hmem : ⟨.setItemActive item true, a⟩ ∈ restoring := by
    rw [hrestoring]
    exact List.mem_append_right _ List.mem_cons_self
  cases hundo _ hmem with
  | reactivate _ remembered =>
    rw [hg.deactivated_rememberAll hblocks, List.mem_eraseDups] at remembered
    obtain ⟨a', hy⟩ := mem_deactivated remembered
    exact ⟨a', List.mem_append_left _ hy⟩

/-- What was made is deleted once a restore is through, and not before. -/
theorem deleted (hg : g.Fresh) (hblocks : g.Blocks xs) (hwork : ∀ x ∈ labour, x.call.isWork = true)
    {returned : Bool}
    (hrestored : Comprises restoring (if returned then (g.rememberAll xs).undoing else [])) :
    (xs ++ (labour ++ restoring)).filterMap (·.call.deleted?) =
      if returned then (xs ++ (labour ++ restoring)).filterMap Exchange.created? else [] := by
  have hnone {β : Type} {f : Exchange → Option β} {ys : List Exchange} (h : ∀ x ∈ ys, f x = none) :
      ys.filterMap f = [] := List.filterMap_eq_nil_iff.mpr h
  rw [List.filterMap_append, List.filterMap_append, hnone fun x hx => (hblocks.keeps x hx).1,
    hnone fun x hx => (Call.plain_of_isWork (hwork x hx)).2.2.1, hrestored.deleted]
  cases returned with
  | false => rfl
  | true =>
    -- neither the work nor the restore makes anything
    have hlabour : labour.filterMap Exchange.created? = [] := hnone fun x hx =>
      (Exchange.unmade_of_not_reshaping (Call.plain_of_isWork (hwork x hx)).2.2.2).1
    have hrestoring : restoring.filterMap Exchange.created? = [] := hnone fun x hx =>
      (hrestored.undoes (List.Subset.refl _) x hx).unmade
    rw [if_pos rfl, if_pos rfl, deleted_undoing, hg.temporary_rememberAll, List.filterMap_append,
      List.filterMap_append, hlabour, hrestoring]
    simp

end Guard.Fresh

namespace Request

variable {ctx : Orchestration} {request : Request} {planning : List Exchange} {task : Task} {g : Guard}

/-- The configuration of a name, as it was looked up. -/
def Finds (request : Request) (xs : List Exchange) (c : Configuration) : Prop :=
  ∃ project configurations, ⟨.configurations project, .ok configurations⟩ ∈ xs ∧
    configurations.find? (·.name = request.configuration) = some c

theorem Finds.mono {xs ys : List Exchange} {c : Configuration} (h : request.Finds xs c) (hsub : xs ⊆ ys) :
    request.Finds ys c := by
  obtain ⟨project, configurations, hlisted, hfound⟩ := h
  exact ⟨project, configurations, hsub hlisted, hfound⟩

theorem Prepared.finds (h : request.Prepared ctx planning task g) :
    request.Finds planning g.configuration := by
  cases h with
  | @all xs ys zs project configuration task data report opened required planned =>
    obtain @⟨configurations, _, found⟩ := required
    exact ⟨project, configurations, by simp, found⟩

theorem Prepared.reported (h : request.Prepared ctx planning task g) :
    ∀ item ∈ task.items, g.configuration.Reports planning item := by
  intro item hitem
  cases h with
  | all data report opened required planned =>
    exact (planned.reported item hitem).mono fun x hx => by simp [hx]

end Request

namespace Task

variable {task : Task} {g : Guard} {redirection alteration : Trace}
  {r : Except OrchestrationError Unit}

theorem Altering.written (h : Altering task g redirection alteration r) :
    ∀ x ∈ (redirection ++ alteration).exchanges, ∀ item, x.call.written? = some item →
      item ∈ task.items := by
  rw [Trace.exchanges_append]
  refine List.forall_mem_append.mpr ⟨fun x hx item hwritten => ?_, fun x hx item hwritten => ?_⟩
  · rw [Call.written_of_isRedirect (h.redirects x hx)] at hwritten
    cases hwritten
  · apply (h.changes x hx).item_mem
    obtain ⟨call, a⟩ := x
    cases call <;> first | exact hwritten | cases hwritten

/-- The guard remembers no items but the task's own. -/
theorem Altering.remembered (h : Altering task g redirection alteration r) (hg : g.Fresh)
    {item : Item} (hitem : item ∈ (g.rememberAll (redirection ++ alteration).exchanges).reassigned ∨
      item ∈ (g.rememberAll (redirection ++ alteration).exchanges).deactivated) :
    item ∈ task.items := by
  rw [hg.reassigned_rememberAll h.carries.blocks, hg.deactivated_rememberAll h.carries.blocks,
    List.mem_eraseDups, List.mem_eraseDups] at hitem
  rcases hitem with hassigned | hdeactivated
  · obtain ⟨x, hx, hassigned⟩ := List.mem_filterMap.mp hassigned
    apply h.written x hx
    obtain ⟨call, a⟩ := x
    cases call <;> first | exact hassigned | cases hassigned
  · obtain ⟨a, hx⟩ := mem_deactivated hdeactivated
    exact h.written _ hx item rfl

/-- The region is made of the changes, the work and what the guard remembers of the former. -/
theorem Region.altered {ctx : Orchestration} {s : σ} {flag : Bool} {t : Trace}
    {o : Option (Except OrchestrationError Unit × Guard)} (h : Region env ctx task g s flag t o) :
    ∃ redirection alteration r labour,
      t.exchanges = (redirection ++ alteration).exchanges ++ labour ∧
      Altering task g redirection alteration r ∧ task.request.Working g.configuration labour ∧
      ∀ result g', o = some (result, g') →
        g' = g.rememberAll (redirection ++ alteration).exchanges := by
  cases h with
  | failed redirection alteration e altering =>
    refine ⟨_, _, _, [], (List.append_nil _).symm, altering, .idle, fun result g' ho => ?_⟩
    cases ho
    rfl
  | worked redirection alteration labour o altering labours =>
    refine ⟨_, _, _, _, Trace.exchanges_append _ _, altering, labours.working,
      fun result g' ho => ?_⟩
    obtain ⟨r', -, hr⟩ := Option.map_eq_some_iff.mp ho
    cases hr
    rfl

end Task

/-- Calls, made after planning, that keep to what planning found and to what they made themselves.
By the time the orchestration returns, each test set that was made has had its one deletion. -/
structure Request.Confined (request : Request) (c : Configuration) (planning rest : List Exchange)
    (returned : Bool) : Prop where
  found : request.Finds planning c
  configured : ∀ x ∈ rest, ∀ c', x.call.configured? = some c' → c' = c
  written : ∀ x ∈ rest, ∀ item, x.call.written? = some item → c.Reports planning item
  /-- An id of which no item was found active stands for no item that is written to. -/
  spared : ∀ id, (∀ item, item.id = id → ⟨.itemActive item, .ok true⟩ ∉ planning) →
    ∀ x ∈ rest, ∀ item, x.call.written? = some item → item.id ≠ id
  handled : ∀ before x after testSet, rest = before ++ x :: after →
    x.call.handled? = some testSet → testSet ∈ before.filterMap Exchange.created?
  deleted : rest.filterMap (·.call.deleted?) =
    if returned then rest.filterMap Exchange.created? else []
  reactivated : ∀ before item a after, rest = before ++ ⟨.setItemActive item true, a⟩ :: after →
    ∃ a', ⟨.setItemActive item false, a'⟩ ∈ before
  shaped : ∀ report, request = .report report → ∀ x ∈ rest, x.call.isReshaping = false

section

variable {ctx : Orchestration} {request : Request} {planning labour restoring : List Exchange}
  {task : Task} {g : Guard} {redirection alteration : Trace} {r : Except OrchestrationError Unit}
  {returned : Bool}

theorem Request.Working.configured {c : Configuration} (h : request.Working c labour) :
    ∀ x ∈ labour, ∀ c', x.call.configured? = some c' → c' = c := by
  have htrigger (a) : ∀ c', (request.triggered c a).call.configured? = some c' → c' = c := by
    intro c' hc
    cases request <;> exact (Option.some.inj hc).symm
  cases h with
  | idle => exact nofun
  | refused e => simpa using htrigger (.error e)
  | awaited h =>
    refine List.forall_mem_cons.mpr ⟨htrigger _, fun x hx c' hc => ?_⟩
    rcases h.kinds x hx with hcall | hcall <;> rw [hcall] at hc <;> cases hc

theorem Request.confined (prepared : request.Prepared ctx planning task g)
    (altering : Task.Altering task g redirection alteration r)
    (works : request.Working g.configuration labour)
    (restored : Comprises restoring (if returned then
      (g.rememberAll (redirection ++ alteration).exchanges).undoing else [])) :
    request.Confined g.configuration planning
      ((redirection ++ alteration).exchanges ++ (labour ++ restoring)) returned := by
  obtain ⟨htask, hfresh, -⟩ := prepared.facts
  have hblocks := altering.carries.blocks
  have hwork := works.isWork
  have hundo : ∀ x ∈ restoring,
      (g.rememberAll (redirection ++ alteration).exchanges).Undoes x.call := by
    apply restored.undoes
    cases returned with
    | true => exact List.Subset.refl _
    | false => exact List.nil_subset _
  have hconfigured : ∀ x ∈ restoring, ∀ c, x.call.configured? = some c → c = g.configuration := by
    intro x hx c hc
    rw [(hundo x hx).configured hc, configuration_rememberAll]
  -- what the restore writes to is what the guard remembers, and that is of the task's own items
  have hwritten : ∀ x ∈ (redirection ++ alteration).exchanges ++ (labour ++ restoring), ∀ item,
      x.call.written? = some item → item ∈ task.items := by
    refine List.forall_mem_append.mpr ⟨altering.written, List.forall_mem_append.mpr ⟨?_, ?_⟩⟩
    · intro x hx item h
      rw [(Call.plain_of_isWork (hwork x hx)).1] at h
      cases h
    · intro x hx item h
      exact altering.remembered hfresh ((hundo x hx).written h)
  refine {
    found := prepared.finds
    configured := List.forall_mem_append.mpr
      ⟨hblocks.configured, List.forall_mem_append.mpr ⟨works.configured, hconfigured⟩⟩
    written := fun x hx item h => prepared.reported item (hwritten x hx item h)
    spared := ?spared
    handled := fun before x after testSet hx h => hfresh.handled hblocks hwork hundo hx h
    deleted := hfresh.deleted hblocks hwork restored
    reactivated := fun before item a after hx => hfresh.reactivated hblocks hwork hundo hx
    shaped := ?shaped }
  case spared =>
    intro id hid x hx item h hitem
    obtain ⟨items, -, -, hactive⟩ := prepared.reported item (hwritten x hx item h)
    exact hid item hitem hactive
  case shaped =>
    rintro report rfl
    cases task with
    | execution request' plan names => cases htask
    | report request' assignment =>
      have hshaped := altering.unshaped_of_report
      have hunmade := fun x hx => Exchange.unmade_of_not_reshaping (hshaped x hx)
      -- nothing was made or deactivated, so there is nothing of the kind to undo
      have htemporary := hfresh.temporary_rememberAll (redirection ++ alteration).exchanges
      rw [List.filterMap_eq_nil_iff.mpr fun x hx => (hunmade x hx).1] at htemporary
      have hdeactivated := hfresh.deactivated_rememberAll hblocks
      rw [List.filterMap_eq_nil_iff.mpr fun x hx => (hunmade x hx).2] at hdeactivated
      refine List.forall_mem_append.mpr ⟨hshaped, List.forall_mem_append.mpr ⟨?_, ?_⟩⟩
      · exact fun x hx => (Call.plain_of_isWork (hwork x hx)).2.2.2
      · exact fun x hx => (hundo x hx).unshaped htemporary hdeactivated

end

/-- What the calls of an orchestration touch: nothing, or a configuration and what planning found for
it. -/
inductive Request.Footprint (request : Request) (returned : Bool) : List Exchange → Prop
  | untouched {planning} (pure : ∀ x ∈ planning, x.call.isEffect = false) :
    request.Footprint returned planning
  | touched {planning rest} (c : Configuration) (pure : ∀ x ∈ planning, x.call.isEffect = false)
    (confined : request.Confined c planning rest returned) :
    request.Footprint returned (planning ++ rest)

theorem Request.Preparing.pure {request : Request} {xs : List Exchange}
    {directories : Option (Path × Path)} (h : request.Preparing xs directories) :
    ∀ x ∈ xs, x.call.isEffect = false := by
  obtain ⟨c, ys, zs, rfl, hplanning, hreadings, -⟩ := h.planning
  exact (hplanning.append hreadings.kinds).effectless

theorem Course.footprint {ctx : Orchestration} {request : Request} {s : σ} {flag : Bool} {t : Trace}
    {o : Option (Except OrchestrationError Outcome)} (h : Course env ctx request s flag t o) :
    request.Footprint o.isSome t.exchanges := by
  cases h with
  | unprepared planning e awake preparing => exact .untouched preparing.pure
  | unfinished planning work task g awake preparing prepared region =>
    obtain ⟨redirection, alteration, r, labour, hwork, altering, hlabour, -⟩ := region.altered
    rw [prepared.facts.1] at hlabour
    have hnothing : Comprises [] (if false then
        (g.rememberAll (redirection ++ alteration).exchanges).undoing else []) := ⟨rfl, nofun⟩
    have hconfined := Request.confined prepared altering hlabour hnothing
    rw [List.append_nil, ← hwork] at hconfined
    rw [Trace.exchanges_append]
    exact .touched g.configuration preparing.pure hconfined
  | finished planning work restoration line task g result g' failures awake preparing prepared
      region restored =>
    obtain ⟨redirection, alteration, r, labour, hwork, altering, hlabour, hg'⟩ := region.altered
    rw [prepared.facts.1] at hlabour
    obtain rfl := hg' result g' rfl
    have hundoing : Comprises restoration.exchanges (if true then
        (g.rememberAll (redirection ++ alteration).exchanges).undoing else []) :=
      restored.restores.comprises
    have hconfined := Request.confined prepared altering hlabour hundoing
    rw [← List.append_assoc, ← hwork] at hconfined
    simp only [Trace.exchanges_append, Trace.exchanges_noted, List.append_nil]
    exact .touched g.configuration preparing.pure hconfined

/-- However the engine answers and however the run ends, an orchestration touches nothing but the
configuration it was asked for, the items that were listed for it and found active, and the test sets
that it made. -/
theorem orchestrate_footprint (env : Environment σ) (ctx : Orchestration) (request : Request)
    (w : World σ) :
    ∃ events, (Session.run (request.orchestrate ctx).run env w).2.events = w.events ++ events ∧
      request.Footprint (Session.run (request.orchestrate ctx).run env w).1.isSome
        (events.filterMap Event.exchange?) := by
  obtain ⟨t, hevents, hcourse⟩ := orchestrate_course env ctx request w
  exact ⟨t.events, hevents, hcourse.footprint⟩

end GuardedRun
