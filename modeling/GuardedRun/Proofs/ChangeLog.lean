import GuardedRun.Proofs.Footprint
import GuardedRun.Proofs.Rig
import GuardedRun.Proofs.Vocabulary

/-! The lines that tell of the changes of a configuration, against the calls that made them. A line is noted
after its call, and in the order of the calls; that of a test set is noted once the test set is filled, so it
tells of no test set that could not be filled. -/

namespace GuardedRun

open MonadSession Session Guard Guarded

variable {σ ε α β : Type} {env : Environment σ} {w : World σ}

namespace LogLine

/-- The line has one of the events that tell of changes. -/
def tellsChange (line : LogLine) : Bool := "mutate.".toList.isPrefixOf line.event.toList

def redirectedData (former path : Path) : LogLine :=
  ⟨.info, "mutate.data_dir", s!"data directory changed from {former} to {path}"⟩

def redirectedReport (former path : Path) : LogLine :=
  ⟨.info, "mutate.report_dir", s!"report directory changed from {former} to {path}"⟩

def madeTestSet (testSet : TestSet) (scenarios : List Scenario) : LogLine :=
  let names := Scenario.describe scenarios
  ⟨.info, "mutate.temp_test_set", s!"created temporary test set `{testSet.name}` with: {names}"⟩

def assigned (item : Item) (testSet : TestSet) : LogLine :=
  ⟨.info, "mutate.assign", s!"{item.describe}: assigned test set `{testSet.name}`"⟩

def deactivated (item : Item) : LogLine :=
  ⟨.info, "mutate.deactivate", s!"{item.describe}: deactivated, no requested test case in its test set"⟩

/-- A line of a part whose events are not those of changes. -/
theorem not_tellsChange {events : List String} {line : LogLine} (h : line.event ∈ events)
    (hevents : ∀ event ∈ events, "mutate.".toList.isPrefixOf event.toList = false) :
    line.tellsChange = false :=
  hevents line.event h

end LogLine

namespace Exchange

/-- The call changed the configuration or the project. -/
def isChange : Exchange → Bool
  | ⟨.setDataDir _ _, .ok _⟩ | ⟨.setReportDir _ _, .ok _⟩ | ⟨.createTestSet _ _, .ok _⟩
  | ⟨.setItemTestSet _ _, .ok _⟩ | ⟨.setItemActive _ _, .ok _⟩ => true
  | _ => false

/-- The call was to fill a test set, and failed. -/
def isUnfilled : Exchange → Bool
  | ⟨.addScenarios _ _, .error _⟩ => true
  | _ => false

/-- A line tells of a call that changed something: it has the event of such calls and names the path, the
test set or the item. -/
inductive Told (data report : Path) : Exchange → LogLine → Prop
  | data (c path u) : Told data report ⟨.setDataDir c path, .ok u⟩ (.redirectedData data path)
  | report (c path u) : Told data report ⟨.setReportDir c path, .ok u⟩ (.redirectedReport report path)
  | made (project name testSet scenarios) :
    Told data report ⟨.createTestSet project name, .ok testSet⟩ (.madeTestSet testSet scenarios)
  | assigned (item testSet u) :
    Told data report ⟨.setItemTestSet item (some testSet), .ok u⟩ (.assigned item testSet)
  | deactivated (item u) : Told data report ⟨.setItemActive item false, .ok u⟩ (.deactivated item)

/-- The line that is noted right after a call under a guard, where the directories were the given ones. -/
def line? (data report : Path) : Exchange → Option LogLine
  | ⟨.setDataDir _ path, .ok _⟩ => some (.redirectedData data path)
  | ⟨.setReportDir _ path, .ok _⟩ => some (.redirectedReport report path)
  | ⟨.addScenarios testSet scenarios, .ok _⟩ => some (.madeTestSet testSet scenarios)
  | ⟨.setItemTestSet item (some testSet), .ok _⟩ => some (.assigned item testSet)
  | ⟨.setItemActive item false, .ok _⟩ => some (.deactivated item)
  | _ => none

theorem line?_of_isWork {data report : Path} {x : Exchange} (h : x.call.isWork = true) :
    x.line? data report = none := by
  obtain ⟨call, a⟩ := x
  cases call <;> first | rfl | cases h

/-- The lines of calls tell of changes. -/
theorem tellsChange_of_line? {data report : Path} {x : Exchange} {line : LogLine}
    (h : x.line? data report = some line) : line.tellsChange = true := by
  have hevents : ∀ event ∈ ["mutate.data_dir", "mutate.report_dir", "mutate.temp_test_set",
      "mutate.assign", "mutate.deactivate"], "mutate.".toList.isPrefixOf event.toList = true := by decide
  apply hevents
  unfold line? at h
  split at h <;> cases h <;> simp [LogLine.redirectedData, LogLine.redirectedReport,
    LogLine.madeTestSet, LogLine.assigned, LogLine.deactivated]

end Exchange

/-- The lines about changes are, in the order of the calls, those of the calls. -/
def Trace.Recounts (data report : Path) (t : Trace) : Prop :=
  t.lines.filter LogLine.tellsChange = t.exchanges.filterMap (Exchange.line? data report)

namespace Trace.Recounts

variable {data report : Path}

theorem nil : ({} : Trace).Recounts data report := rfl

theorem append {t t' : Trace} (h : t.Recounts data report) (h' : t'.Recounts data report) :
    (t ++ t').Recounts data report := by
  rw [Recounts, lines_append, exchanges_append, List.filter_append, List.filterMap_append, h, h']

theorem told {call : Call} {a : Except EngineError call.Reply}
    (h : (⟨call, a⟩ : Exchange).line? data report = none) (raised : Bool) :
    (Trace.told call a raised).Recounts data report := by
  rw [Recounts, lines_told, exchanges_told, List.filter_nil, List.filterMap_cons_none h, List.filterMap_nil]

theorem noted {line : LogLine} (h : line.tellsChange = false) :
    (Trace.noted line).Recounts data report := by
  rw [Recounts, lines_noted, exchanges_noted, List.filterMap_nil, List.filter_cons_of_neg (by simp [h]),
    List.filter_nil]

/-- A call and then its line. -/
theorem told_noted {call : Call} {a : Except EngineError call.Reply} {line : LogLine}
    (hline : (⟨call, a⟩ : Exchange).line? data report = some line) (raised : Bool) :
    (Trace.told call a raised ++ .noted line).Recounts data report := by
  have htells : line.tellsChange = true := Exchange.tellsChange_of_line? hline
  rw [Recounts, lines_append, exchanges_append, lines_told, lines_noted, exchanges_told, exchanges_noted,
    List.nil_append, List.append_nil, List.filter_cons_of_pos htells, List.filter_nil,
    List.filterMap_cons_some hline, List.filterMap_nil]

theorem of_silent {t : Trace} (hlines : ∀ line ∈ t.lines, line.tellsChange = false)
    (hcalls : ∀ x ∈ t.exchanges, x.line? data report = none) : t.Recounts data report := by
  have hnone : t.lines.filter LogLine.tellsChange = [] :=
    List.filter_eq_nil_iff.mpr fun line hline => by simp [hlines line hline]
  rw [Recounts, hnone, List.filterMap_eq_nil_iff.mpr hcalls]

end Trace.Recounts

/-- The guard began with these directories. -/
def Guard.Found (data report : Path) (g : Guard) : Prop :=
  g.formerDataDir = data ∧ g.formerReportDir = report

/-- Work under a guard notes the line of each change that it makes, and of no other, whatever the engine
answers. -/
def Guarded.Recounts (data report : Path) (x : Guarded σ ε α) : Prop :=
  ∀ (env : Environment σ) (w : World σ) (g : Guard), g.Found data report →
    Returns env w (under g x) fun t r => t.Recounts data report ∧ r.2.Found data report

namespace Guarded.Recounts

variable {data report : Path}

theorem pure (a : α) : Recounts data report (pure a : Guarded σ ε α) :=
  fun _ _ _ hg => .pure ⟨.nil, hg⟩

theorem throw (e : ε) : Recounts data report (throw e : Guarded σ ε α) :=
  fun _ _ _ hg => .pure ⟨.nil, hg⟩

theorem note {line : LogLine} (h : line.tellsChange = false) :
    Recounts data report (MonadSession.note line : Guarded σ ε Unit) :=
  fun _ _ _ hg => returns_note ⟨.noted h, hg⟩

/-- A call that has no line of its own. -/
theorem ask {call : Call} (h : ∀ a, (⟨call, a⟩ : Exchange).line? data report = none) :
    Recounts data report (MonadSession.ask call : Guarded σ EngineError call.Reply) := by
  intro env w g hg
  change Returns env w (Session.ask call >>= fun a => Pure.pure (a, g)) _
  apply Returns.ask_bind
  intro raised a w₁ _
  apply Returns.pure
  rw [Trace.append_nil]
  exact ⟨.told (h a) raised, hg⟩

/-- A call with its line behind it. A failing call ends the work before the line. -/
theorem announce {call : Call} {line : LogLine}
    (hok : ∀ reply, (⟨call, .ok reply⟩ : Exchange).line? data report = some line)
    (herror : ∀ e, (⟨call, .error e⟩ : Exchange).line? data report = none) :
    Recounts data report (MonadSession.ask call >>= fun _ => MonadSession.note line :
      Guarded σ EngineError Unit) := by
  intro env w g hg
  apply returns_ask_bind
  · intro raised e
    exact ⟨.told (herror e) raised, hg⟩
  · intro raised reply w₁ _
    exact returns_note ⟨.told_noted (hok reply) raised, hg⟩

theorem bind {x : Guarded σ ε α} {f : α → Guarded σ ε β} (hx : Recounts data report x)
    (hf : ∀ a, Recounts data report (f a)) : Recounts data report (x >>= f) := by
  intro env w g hg
  apply returns_bind (hx env w g hg)
  · exact fun t e g₁ h => h
  · intro t a g₁ w₁ _ h
    exact (hf a env w₁ g₁ h.2).mono fun t' r h' => ⟨h.1.append h'.1, h'.2⟩

theorem get_bind {f : Guard → Guarded σ ε β} (hf : ∀ g, g.Found data report → Recounts data report (f g)) :
    Recounts data report (get >>= f) :=
  fun env w g hg => hf g hg env w g hg

theorem modify_bind {h : Guard → Guard} {f : PUnit → Guarded σ ε β}
    (hh : ∀ g : Guard, g.Found data report → (h g).Found data report) (hf : Recounts data report (f ())) :
    Recounts data report (modify h >>= f) :=
  fun env w g hg => hf env w (h g) (hh g hg)

theorem atStage {stage : Stage} {x : Guarded σ EngineError α} (hx : Recounts data report x) :
    Recounts data report (atStage stage x) := by
  intro env w g hg
  exact returns_atStage (hx env w g hg) (fun _ _ _ h => h) (fun _ _ _ h => h)

end Guarded.Recounts

namespace Guard

variable {data report : Path}

theorem recounts_redirectData (path : Path) :
    Recounts data report (redirectData path : Guarded σ EngineError Unit) := by
  refine .get_bind fun g hg => ?_
  obtain ⟨rfl, -⟩ := hg
  exact .announce (fun _ => rfl) (fun _ => rfl)

theorem recounts_redirectReport (path : Path) :
    Recounts data report (redirectReport path : Guarded σ EngineError Unit) := by
  refine .get_bind fun g hg => ?_
  obtain ⟨-, rfl⟩ := hg
  exact .announce (fun _ => rfl) (fun _ => rfl)

theorem recounts_redirectDirectories (dataDir reportDir : Option Path) :
    Recounts data report (redirectDirectories dataDir reportDir : Guarded σ EngineError Unit) := by
  intro env w g hg
  have hmarked : g.markDirectories.Found data report := hg
  rcases dataDir with _ | path <;> rcases reportDir with _ | path'
  · rw [under_redirectDirectories_none]
    exact Recounts.pure () env w g hg
  · rw [under_redirectDirectories_report]
    exact recounts_redirectReport path' env w _ hmarked
  · rw [under_redirectDirectories_data]
    exact (recounts_redirectData path).bind (fun _ => .pure ()) env w _ hmarked
  · rw [under_redirectDirectories_both]
    exact (recounts_redirectData path).bind (fun _ => recounts_redirectReport path') env w _ hmarked

theorem recounts_assign (item : Item) (testSet : TestSet) :
    Recounts data report (assign item testSet : Guarded σ EngineError Unit) := by
  have hset : Recounts data report (do
      ask (.setItemTestSet item (some testSet))
      note (.assigned item testSet) : Guarded σ EngineError Unit) :=
    .announce (fun _ => rfl) (fun _ => rfl)
  refine .get_bind fun g _ => ?_
  split
  · exact hset
  · exact (Recounts.ask fun _ => rfl).bind fun former => .modify_bind (fun _ hg => hg) hset

theorem recounts_createTemporary (name : TestSetName) (scenarios : List Scenario) :
    Recounts data report (createTemporary name scenarios : Guarded σ EngineError TestSet) := by
  refine .get_bind fun g _ => (Recounts.ask fun _ => rfl).bind fun testSet => ?_
  have hfill : Recounts data report (do
      ask (.addScenarios testSet scenarios)
      note (.madeTestSet testSet scenarios) : Guarded σ EngineError Unit) :=
    .announce (fun _ => rfl) (fun _ => rfl)
  apply Recounts.modify_bind
  · exact fun g hg => hg
  · have hall := hfill.bind fun _ => Recounts.pure testSet
    rwa [bind_assoc] at hall

theorem recounts_deactivate (item : Item) :
    Recounts data report (deactivate item : Guarded σ EngineError Unit) := by
  apply Recounts.modify_bind
  · intro g hg
    unfold rememberDeactivated
    split <;> exact hg
  · exact .announce (fun _ => rfl) (fun _ => rfl)

end Guard

namespace Guarded

variable {data report : Path}

theorem recounts_drawName (names : TemporaryNames) :
    Recounts data report (drawName names : Guarded σ OrchestrationError (TestSetName × TemporaryNames)) := by
  unfold drawName
  split
  · exact .pure _
  · exact .throw _

theorem recounts_applyActions (names : TemporaryNames) (actions : List ItemAction) :
    Recounts data report (applyActions names actions : Guarded σ OrchestrationError Unit) := by
  induction actions generalizing names with
  | nil => exact .pure ()
  | cons action rest ih =>
    cases action with
    | deactivate item => exact (Guard.recounts_deactivate item).atStage.bind fun _ => ih names
    | filter item scenarios =>
      refine (recounts_drawName names).bind fun drawn => ?_
      refine (Guard.recounts_createTemporary drawn.1 scenarios).atStage.bind fun testSet => ?_
      exact (Guard.recounts_assign item testSet).atStage.bind fun _ => ih drawn.2

theorem recounts_assignAll (testSet : TestSet) (items : List Item) :
    Recounts data report (assignAll testSet items : Guarded σ OrchestrationError Unit) := by
  induction items with
  | nil => exact .pure ()
  | cons item rest ih => exact (Guard.recounts_assign item testSet).atStage.bind fun _ => ih

theorem recounts_applyPlan (names : TemporaryNames) (plan : Plan) :
    Recounts data report (applyPlan names plan : Guarded σ OrchestrationError Unit) := by
  cases plan with
  | unfiltered => exact .note (by decide)
  | perItem actions => exact recounts_applyActions names actions
  | shared scenarios items =>
    refine (recounts_drawName names).bind fun drawn => ?_
    refine (Guard.recounts_createTemporary drawn.1 scenarios).atStage.bind fun testSet => ?_
    split
    · exact (Recounts.note (by decide)).bind fun _ => recounts_assignAll testSet items
    · exact recounts_assignAll testSet items

end Guarded

namespace Task

variable {g : Guard}

theorem recounts_alter {data report : Path} (task : Task) :
    Recounts data report (task.alter : Guarded σ OrchestrationError Unit) := by
  rcases task with ⟨request, plan, names⟩ | ⟨request, _ | ⟨testSet, items⟩⟩
  · exact recounts_applyPlan names plan
  · exact .pure ()
  · exact recounts_assignAll testSet items

/-- All that is done under a guard is recounted, though the work that follows the changes may go on. -/
theorem traces_perform_recounts (ctx : Orchestration) (task : Task) :
    Traces env w (under g (task.perform ctx)) fun t _ => t.Recounts g.formerDataDir g.formerReportDir := by
  have hg : g.Found g.formerDataDir g.formerReportDir := ⟨rfl, rfl⟩
  have hquiet : ∀ event ∈ Vocabulary.work, "mutate.".toList.isPrefixOf event.toList = false := by decide
  obtain ⟨event, message, line, hconduct, hevent, hline⟩ := perform_eq (σ := σ) ctx task
  rw [hconduct, conduct]
  apply Guarded.traces_bind ((recounts_redirectDirectories task.dataDir task.reportDir).atStage env w g hg)
  · exact fun t e g₁ h => h.1
  · intro t₁ u g₁ w₁ _ h₁
    apply Guarded.traces_bind (recounts_alter task env w₁ g₁ h₁.2)
    · exact fun t e g₂ h => h₁.1.append h.1
    · intro t₂ v g₂ w₂ _ h₂
      -- what is left has neither calls nor lines of changes
      apply ((notes_labour ctx task hevent hline g₂).traces (traces_labour ctx task event message line)).mono
      rintro t₃ o ⟨⟨o', -, hlabour⟩, hlines⟩
      refine h₁.1.append (h₂.1.append (.of_silent (fun line hline => ?_) fun x hx => ?_))
      · exact LogLine.not_tellsChange (hlines line hline) hquiet
      · exact Exchange.line?_of_isWork (hlabour.working.isWork x hx)

end Task

namespace Guard

variable {g : Guard} {xs : List Exchange} {data report : Path}

theorem Block.told (h : g.Block xs) (hfilled : ∀ x ∈ xs, x.isUnfilled = false) :
    List.Forall₂ (Exchange.Told data report) (xs.filter Exchange.isChange)
      (xs.filterMap (Exchange.line? data report)) := by
  cases h with
  | redirectData path a =>
    cases a with
    | ok u => exact .cons (.data _ path u) .nil
    | error e => exact .nil
  | redirectReport path a =>
    cases a with
    | ok u => exact .cons (.report _ path u) .nil
    | error e => exact .nil
  | unread item e fresh => exact .nil
  | firstAssign item former testSet a fresh =>
    cases a with
    | ok u => exact .cons (.assigned item testSet u) .nil
    | error e => exact .nil
  | nextAssign item testSet a known =>
    cases a with
    | ok u => exact .cons (.assigned item testSet u) .nil
    | error e => exact .nil
  | deactivate item a =>
    cases a with
    | ok u => exact .cons (.deactivated item u) .nil
    | error e => exact .nil
  | uncreated name e => exact .nil
  | create name testSet scenarios a =>
    cases a with
    | ok u => exact .cons (.made _ name testSet scenarios) .nil
    | error e => cases hfilled _ (List.mem_cons_of_mem _ List.mem_cons_self)

/-- A change lacks its line only where a test set was not filled. -/
theorem Block.untold (h : g.Block xs) : (xs.filter Exchange.isChange).length =
    (xs.filterMap (Exchange.line? data report)).length + xs.countP Exchange.isUnfilled := by
  cases h with
  | redirectData path a | redirectReport path a | firstAssign item former testSet a fresh
  | nextAssign item testSet a known | deactivate item a | create name testSet scenarios a =>
    cases a <;> rfl
  | unread | uncreated => rfl

theorem Blocks.told (h : g.Blocks xs) (hfilled : ∀ x ∈ xs, x.isUnfilled = false) :
    List.Forall₂ (Exchange.Told data report) (xs.filter Exchange.isChange)
      (xs.filterMap (Exchange.line? data report)) := by
  induction h with
  | nil g => exact .nil
  | cons first rest ih =>
    obtain ⟨hfirst, hrest⟩ := List.forall_mem_append.mp hfilled
    rw [List.filter_append, List.filterMap_append]
    exact List.rel_append (first.told hfirst) (ih hrest)

theorem Blocks.untold (h : g.Blocks xs) : (xs.filter Exchange.isChange).length =
    (xs.filterMap (Exchange.line? data report)).length + xs.countP Exchange.isUnfilled := by
  induction h with
  | nil g => rfl
  | @cons g block ys first rest ih =>
    have hblock : (block.filter Exchange.isChange).length =
        (block.filterMap (Exchange.line? data report)).length + block.countP Exchange.isUnfilled :=
      first.untold
    simp only [List.filter_append, List.filterMap_append, List.countP_append, List.length_append]
    omega

/-- All changes have their lines just where all test sets that were made were filled. -/
theorem Blocks.told_iff (h : g.Blocks xs) :
    List.Forall₂ (Exchange.Told data report) (xs.filter Exchange.isChange)
      (xs.filterMap (Exchange.line? data report)) ↔ ∀ x ∈ xs, x.isUnfilled = false := by
  constructor
  · intro htold
    have hlength := htold.length_eq
    have huntold : (xs.filter Exchange.isChange).length =
        (xs.filterMap (Exchange.line? data report)).length + xs.countP Exchange.isUnfilled := h.untold
    have hnone : xs.countP Exchange.isUnfilled = 0 := by omega
    intro x hx
    simpa using List.countP_eq_zero.mp hnone x hx
  · exact h.told

end Guard

/-- What comes before a guard is planning as a whole, its reads of the directories included. -/
theorem Request.Preparing.wholly {request : Request} {xs : List Exchange}
    {directories : Option (Path × Path)} (h : request.Preparing xs directories) : request.Planning xs := by
  obtain ⟨c, ys, zs, hparts, hplanning, hreadings, -⟩ := h.planning
  rw [hparts]
  exact hplanning.append hreadings.kinds

/-- The calls of an orchestration and the lines of its log, against one another. The changes lie between the
planning on the one side and the work and the restore, which undoes them, on the other. The lines that tell
of changes are, in their order, those of the changes that succeeded: all of them, just where no test set that
was made could not be filled. -/
inductive Request.Recounted (request : Request) (finished : Bool) : List Exchange → List LogLine → Prop
  | unbegun {planning lines} (plans : request.Planning planning)
    (silent : lines.filter LogLine.tellsChange = []) : request.Recounted finished planning lines
  | begun {planning changes work restoring lines} (g : Guard) (fresh : g.Fresh)
    (plans : request.Planning planning)
    (found : ∃ before, planning = before ++ [⟨.dataDir g.configuration, .ok g.formerDataDir⟩,
      ⟨.reportDir g.configuration, .ok g.formerReportDir⟩])
    (changed : ∀ x ∈ changes, x.call.isRedirect = true ∨ x.call.isChange = true)
    (works : request.Working g.configuration work)
    (restores : Comprises restoring (if finished then (g.rememberAll changes).undoing else []))
    (noted : lines.filter LogLine.tellsChange =
      changes.filterMap (Exchange.line? g.formerDataDir g.formerReportDir))
    (told_iff : List.Forall₂ (Exchange.Told g.formerDataDir g.formerReportDir)
      (changes.filter Exchange.isChange) (lines.filter LogLine.tellsChange) ↔
        ∀ x ∈ changes, x.isUnfilled = false) :
    request.Recounted finished (planning ++ (changes ++ work ++ restoring)) lines

theorem Request.Recounted.of_region {ctx : Orchestration} {request : Request} {task : Task} {g : Guard}
    {s : σ} {flag finished : Bool} {planning work : Trace} {restoring : List Exchange}
    {o : Option (Except OrchestrationError Unit × Guard)} {before after : List LogLine}
    (preparing : request.Preparing planning.exchanges (some (g.formerDataDir, g.formerReportDir)))
    (prepared : request.Prepared ctx planning.exchanges task g)
    (region : Task.Region env ctx task g s flag work o)
    (recounts : work.Recounts g.formerDataDir g.formerReportDir)
    (hbefore : before.filter LogLine.tellsChange = []) (hafter : after.filter LogLine.tellsChange = [])
    (hrestoring : ∀ changes, (∀ r g', o = some (r, g') → g' = g.rememberAll changes) →
      Comprises restoring (if finished then (g.rememberAll changes).undoing else [])) :
    request.Recounted finished (planning.exchanges ++ (work.exchanges ++ restoring))
      (before ++ (work.lines ++ after)) := by
  obtain ⟨htask, hfresh, hfound⟩ := prepared.facts
  obtain ⟨redirection, alteration, r, labour, hparts, altering, hlabour, hguard⟩ := region.altered
  rw [htask] at hlabour
  have hblocks := altering.carries.blocks
  -- the work itself has no lines of changes
  have hquiet : labour.filterMap (Exchange.line? g.formerDataDir g.formerReportDir) = [] :=
    List.filterMap_eq_nil_iff.mpr fun x hx => Exchange.line?_of_isWork (hlabour.isWork x hx)
  have hnoted : (before ++ (work.lines ++ after)).filter LogLine.tellsChange =
      (redirection ++ alteration).exchanges.filterMap
        (Exchange.line? g.formerDataDir g.formerReportDir) := by
    rw [List.filter_append, List.filter_append, hbefore, hafter, recounts, hparts,
      List.filterMap_append, hquiet, List.append_nil, List.append_nil, List.nil_append]
  rw [hparts]
  refine .begun g hfresh preparing.wholly hfound hblocks.kinds hlabour (hrestoring _ hguard) hnoted ?_
  rw [hnoted]
  exact hblocks.told_iff

theorem Request.traces_recounted (ctx : Orchestration) (request : Request) :
    Traces env w (request.orchestrate ctx).run fun t o =>
      request.Recounted o.isSome t.exchanges t.lines := by
  have hsilent {events : List String} {t : Trace} (hlines : ∀ line ∈ t.lines, line.event ∈ events)
      (hevents : ∀ event ∈ events, "mutate.".toList.isPrefixOf event.toList = false) :
      t.lines.filter LogLine.tellsChange = [] := by
    apply List.filter_eq_nil_iff.mpr
    intro line hline
    simp [LogLine.not_tellsChange (hlines line hline) hevents]
  have hplanning : ∀ event ∈ Vocabulary.planning, "mutate.".toList.isPrefixOf event.toList = false := by
    decide
  have hrestored : ∀ event ∈ Vocabulary.restoring, "mutate.".toList.isPrefixOf event.toList = false := by
    decide
  have hends : ∀ event ∈ Vocabulary.ends, "mutate.".toList.isPrefixOf event.toList = false := by decide
  refine traces_parts ((Attempt.notes_prepare ctx request).returns (request.returns_prepare ctx))
    (P := fun planning task g t o => (∃ s flag, Task.Region env ctx task g s flag t o) ∧
      t.Recounts g.formerDataDir g.formerReportDir)
    (fun planning task g w₁ _ _ => ?_)
    (fun g w₂ => (Guard.notes_restoration g).returns (returns_restoration g)) ?_ ?_ ?_
  · have hregions : Traces env w₁ (under g (task.perform ctx))
        (Task.Region env ctx task g w₁.outside w₁.interrupted) := Task.traces_perform ctx task
    have hrecounts : Traces env w₁ (under g (task.perform ctx)) fun t _ =>
        t.Recounts g.formerDataDir g.formerReportDir := Task.traces_perform_recounts ctx task
    obtain ⟨t, hl, hregion⟩ := hregions
    obtain ⟨t', hl', hrecounts⟩ := hrecounts
    obtain rfl := hl.unique hl'
    exact ⟨t, hl, ⟨_, _, hregion⟩, hrecounts⟩
  · intro planning e h
    exact .unbegun h.1.wholly (hsilent h.2 hplanning)
  · intro planning task g work h hwork
    obtain ⟨⟨hpreparing, hprepared⟩, hlines⟩ := h
    obtain ⟨⟨s, flag, hregion⟩, hrecounts⟩ := hwork
    have hall : request.Recounted false (planning.exchanges ++ (work.exchanges ++ []))
        (planning.lines ++ (work.lines ++ [])) :=
      .of_region hpreparing hprepared hregion hrecounts (hsilent hlines hplanning) rfl
        fun changes _ => ⟨rfl, nofun⟩
    rw [List.append_nil, List.append_nil] at hall
    rw [Trace.exchanges_append, Trace.lines_append]
    exact hall
  · intro planning task g work result g' restoration failures h hwork hrestoration concluded
    obtain ⟨⟨hpreparing, hprepared⟩, hlines⟩ := h
    obtain ⟨⟨s, flag, hregion⟩, hrecounts⟩ := hwork
    obtain ⟨hrestoration, hrestoring⟩ := hrestoration
    have hafter : (restoration ++ .noted (request.closing concluded)).lines.filter
        LogLine.tellsChange = [] := by
      have hclosing := LogLine.not_tellsChange (request.event_closing concluded) hends
      rw [Trace.lines_append, List.filter_append, hsilent hrestoring hrestored, List.nil_append,
        Trace.lines_noted, List.filter_cons_of_neg (by simp [hclosing]), List.filter_nil]
    have hall : request.Recounted true (planning.exchanges ++ (work.exchanges ++ restoration.exchanges))
        (planning.lines ++ (work.lines ++ (restoration ++ .noted (request.closing concluded)).lines)) := by
      apply Request.Recounted.of_region hpreparing hprepared hregion hrecounts (hsilent hlines hplanning)
        hafter
      intro changes hguard
      rw [if_pos rfl, ← hguard result g' rfl]
      exact hrestoration.restores.comprises
    rw [Option.isSome_some]
    simpa only [Trace.exchanges_append, Trace.lines_append, Trace.exchanges_noted, List.append_nil]
      using hall

/-- The log of an orchestration, whatever the engine answers and whether or not the orchestration comes to
an end, tells of the changes to the configuration and the project, one by one and in their order, and of
nothing else that was tried; but of a test set that was made it tells only when it has been filled. So each
change has its line just where no call that was to fill a test set failed. -/
theorem orchestrate_recounts_iff (env : Environment σ) (ctx : Orchestration) (request : Request)
    (w : World σ) :
    ∃ events lines, (Session.run (request.orchestrate ctx).run env w).2.events = w.events ++ events ∧
      (Session.run (request.orchestrate ctx).run env w).2.log.lines = w.log.lines ++ lines ∧
      request.Recounted (Session.run (request.orchestrate ctx).run env w).1.isSome
        (events.filterMap Event.exchange?) lines := by
  have htraces : Traces env w (request.orchestrate ctx).run fun t o =>
    request.Recounted o.isSome t.exchanges t.lines := request.traces_recounted ctx
  obtain ⟨t, hl, hrecounted⟩ := htraces
  exact ⟨t.events, t.lines, hl.events, hl.lines, hrecounted⟩

/-- A test set is made and the call that is to fill it is refused: no line tells that it was made, though the
engine has taken it, and the first line about it is that of its deletion. -/
theorem login_makes_untold :
    let rig := Rig.small (List.replicate 17 none ++ [some .refused])
    ∃ r w', Session.run ((Request.execution loginRequest).orchestrate { rounds := 3 }).run
        Rig.environment { outside := rig } = (some r, w') ∧
      (∃ x ∈ w'.events.filterMap Event.exchange?, x.created?.map (·.id) = some ⟨"m1"⟩) ∧
      ∀ line ∈ w'.log.lines, line.event ≠ "mutate.temp_test_set" := by
  intro rig
  generalize hresult : Session.run ((Request.execution loginRequest).orchestrate { rounds := 3 }).run
    Rig.environment { outside := rig } = result
  have hsome : result.1.isSome = true := by
    rw [← hresult]
    decide +kernel
  have hcreated : ∃ x ∈ result.2.events.filterMap Event.exchange?,
      x.created?.map (·.id) = some ⟨"m1"⟩ := by
    rw [← hresult]
    decide +kernel
  have hlines : ∀ line ∈ result.2.log.lines, line.event ≠ "mutate.temp_test_set" := by
    rw [← hresult]
    decide +kernel
  rcases result with ⟨_ | r, w'⟩
  · cases hsome
  · exact ⟨r, w', rfl, hcreated, hlines⟩

end GuardedRun
