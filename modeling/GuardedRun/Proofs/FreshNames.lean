import GuardedRun.Proofs.Leftovers
import GuardedRun.Proofs.NameDraws

/-! Names of temporary test sets against the names that a project has. A run lists the project's test sets
before it makes any, and asks for drawn names alone; so, with nobody else adding test sets, the name that it
asks for is never there already. -/

namespace GuardedRun

open Guard Guarded Session

variable {σ ε α β : Type} {env : Environment σ} {w : World σ}

/-- An engine as far as the names of test sets in its projects go: it lists all of them, and there is a
further one only when it is asked to make a test set of that name. -/
structure Registers (env : Environment σ) (names : σ → ObjectId → List String) : Prop where
  lists : ∀ project s testSets, (env.answer (.testSets project) s).1 = .ok testSets →
    names s project.id ⊆ testSets.map (·.name.text)
  gains : ∀ call s id, ∀ text ∈ names (env.answer call s).2 id, text ∈ names s id ∨
    ∃ project name, call = .createTestSet project name ∧ project.id = id ∧ name.text = text
  pauses : ∀ milliseconds s id, names (env.pause milliseconds s) id ⊆ names s id
  launches : ∀ executable arguments s id,
    names (env.launch executable arguments s).2 id ⊆ names s id

/-- The engine refuses to make a test set only because it has one of that name. -/
def RefusesTaken (env : Environment σ) (names : σ → ObjectId → List String) : Prop :=
  ∀ project name s method message log,
    (env.answer (.createTestSet project name) s).1 = .error (.application method message log) →
      name.text ∈ names s project.id

/-- The test sets that are asked for among some calls bear drawn names, in the order of the draws. -/
inductive Draws (project : Project) : TemporaryNames → List Exchange → TemporaryNames → Prop
  | nil (names) : Draws project names [] names
  | other {names left x xs} (plain : x.call.isCreation = false) (rest : Draws project names xs left) :
    Draws project names (x :: xs) left
  | create {names left name xs} (answer) (drawn : names.draw.1 = .ok name)
    (rest : Draws project names.draw.2 xs left) :
    Draws project names (⟨.createTestSet project name, answer⟩ :: xs) left

namespace Draws

variable {project : Project} {names left left' : TemporaryNames} {xs ys : List Exchange}

theorem append (h : Draws project names xs left) (h' : Draws project left ys left') :
    Draws project names (xs ++ ys) left' := by
  induction h with
  | nil names => exact h'
  | other plain _ ih => exact .other plain (ih h')
  | create answer drawn _ ih => exact .create answer drawn (ih h')

theorem of_plain (h : ∀ x ∈ xs, x.call.isCreation = false) : Draws project names xs names := by
  induction xs with
  | nil => exact .nil names
  | cons x xs ih =>
    obtain ⟨hx, hxs⟩ := List.forall_mem_cons.mp h
    exact .other hx (ih hxs)

end Draws

namespace TemporaryNames

theorem draw_eq_ok {names : TemporaryNames} {name : TestSetName} (h : names.draw.1 = .ok name) :
    name.text = names.candidate names.freeNumber := by
  rw [fst_draw] at h
  exact (Name.parse_eq_ok_iff.mp h).symm

end TemporaryNames

namespace Registers

variable {names : σ → ObjectId → List String} {s : σ} {id : ObjectId}

/-- What is no making of a test set adds no name. -/
theorem next_subset (h : Registers env names) {event : Event}
    (hplain : ∀ x, event.exchange? = some x → x.call.isCreation = false) :
    names (env.next s event) id ⊆ names s id := by
  cases event with
  | asked call answer =>
    intro text htext
    rcases h.gains call s id text htext with hold | ⟨project, name, rfl, -, -⟩
    · exact hold
    · cases hplain _ rfl
  | launched executable arguments result => exact h.launches executable arguments s id
  | slept n => exact h.pauses n s id
  | interrupted => exact List.Subset.refl _

theorem replay_subset (h : Registers env names) {events : List Event}
    (hplain : ∀ x ∈ events.filterMap Event.exchange?, x.call.isCreation = false) :
    names (env.replay s events) id ⊆ names s id := by
  induction events generalizing s with
  | nil => exact List.Subset.refl _
  | cons event rest ih =>
    have hfirst (x : Exchange) (hx : event.exchange? = some x) : x.call.isCreation = false :=
      hplain x (List.mem_filterMap.mpr ⟨event, List.mem_cons_self, hx⟩)
    have hrest (x : Exchange) (hx : x ∈ rest.filterMap Event.exchange?) : x.call.isCreation = false := by
      obtain ⟨e, he, hsome⟩ := List.mem_filterMap.mp hx
      exact hplain x (List.mem_filterMap.mpr ⟨e, List.mem_cons_of_mem _ he, hsome⟩)
    exact List.Subset.trans (ih hrest) (h.next_subset hfirst)

/-- Where a listing was among calls that make nothing, there are no names after them but the listed ones. -/
theorem listed_subset (h : Registers env names) {events : List Event} (hgenuine : env.Genuine s events)
    (hplain : ∀ x ∈ events.filterMap Event.exchange?, x.call.isCreation = false) {project : Project}
    {testSets : List TestSet}
    (hlisted : ⟨.testSets project, .ok testSets⟩ ∈ events.filterMap Event.exchange?) :
    names (env.replay s events) project.id ⊆ testSets.map (·.name.text) := by
  obtain ⟨before, after, rfl⟩ := List.append_of_mem (Event.mem_exchanges.mp hlisted)
  rw [Environment.genuine_append] at hgenuine
  obtain ⟨-, hgives, -⟩ := hgenuine
  have hanswer : .ok testSets = (env.answer (.testSets project) (env.replay s before)).1 := hgives
  have hthere := h.lists project (env.replay s before) testSets hanswer.symm
  have hlater (x : Exchange)
      (hx : x ∈ (.asked (.testSets project) (.ok testSets) :: after).filterMap Event.exchange?) :
      x.call.isCreation = false := by
    rw [List.filterMap_append] at hplain
    exact hplain x (List.mem_append_right _ hx)
  rw [Environment.replay_append]
  exact List.Subset.trans (h.replay_subset hlater) hthere

/-- A name that is asked for after such draws is not there: the names that are there are the former ones,
which count as taken, and those that were drawn since. -/
theorem fresh (h : Registers env names) {project other : Project} {name : TestSetName}
    {answer : Except EngineError TestSet} {after : List Exchange} {left : TemporaryNames}
    (before : List Event) (drawing : TemporaryNames)
    (hdraws : Draws project drawing
      (before.filterMap Event.exchange? ++ ⟨.createTestSet other name, answer⟩ :: after) left)
    (htaken : names s project.id ⊆ drawing.taken) :
    name.text ∉ names (env.replay s before) other.id := by
  induction before generalizing s drawing with
  | nil =>
    cases hdraws with
    | other plain rest => cases plain
    | create answer drawn rest =>
      intro hthere
      rw [TemporaryNames.draw_eq_ok drawn] at hthere
      exact drawing.freeNumber_spec.2.1 (htaken hthere)
  | cons event before ih =>
    rw [Environment.replay_cons]
    cases hx : event.exchange? with
    | none =>
      rw [List.filterMap_cons_none hx] at hdraws
      have hsame : names (env.next s event) project.id ⊆ names s project.id :=
        h.next_subset fun x hsome => by rw [hx] at hsome; cases hsome
      exact ih drawing hdraws (List.Subset.trans hsame htaken)
    | some x =>
      rw [List.filterMap_cons_some hx, List.cons_append] at hdraws
      cases hdraws with
      | other plain rest =>
        have hsame : names (env.next s event) project.id ⊆ names s project.id :=
          h.next_subset fun y hy => by rw [hx] at hy; cases hy; exact plain
        exact ih drawing rest (List.Subset.trans hsame htaken)
      | @create _ _ drawnName _ answer drawn rest =>
        refine ih drawing.draw.2 rest fun text htext => ?_
        -- the one name that may have come is the drawn one, and that counts as taken from now on
        cases event with
        | asked call a =>
          cases hx
          rcases h.gains _ s project.id text htext with hold | ⟨p, asked, hcall, -, hname⟩
          · exact List.mem_cons_of_mem _ (htaken hold)
          · cases hcall
            rw [← hname, TemporaryNames.draw_eq_ok drawn]
            exact List.mem_cons_self
        | _ => cases hx

end Registers

/-- Guarded work makes test sets under drawn names alone, in the guarded project; where it ends well, some
names are left. -/
def Names (env : Environment σ) (w : World σ) (g : Guard) (names : TemporaryNames) (x : Guarded σ ε α)
    (P : TemporaryNames → α → Prop) : Prop :=
  Returns env w (under g x) fun t r => r.2.project = g.project ∧
    ∃ left, Draws g.project names t.exchanges left ∧ ∀ a, r.1 = .ok a → P left a

namespace Names

variable {g : Guard} {names : TemporaryNames}

theorem pure {a : α} {P : TemporaryNames → α → Prop} (h : P names a) :
    Names env w g names (Pure.pure a : Guarded σ ε α) P := by
  refine returns_pure ⟨rfl, names, .nil names, fun b hb => ?_⟩
  cases hb
  exact h

theorem throw {e : ε} {P : TemporaryNames → α → Prop} :
    Names env w g names (MonadExcept.throw e : Guarded σ ε α) P :=
  Returns.pure ⟨rfl, names, .nil names, nofun⟩

theorem mono {x : Guarded σ ε α} {P P' : TemporaryNames → α → Prop} (hx : Names env w g names x P)
    (h : ∀ left a, P left a → P' left a) : Names env w g names x P' :=
  Returns.mono hx fun _ _ ⟨hproject, left, hdraws, hp⟩ =>
    ⟨hproject, left, hdraws, fun a ha => h left a (hp a ha)⟩

theorem bind {x : Guarded σ ε α} {f : α → Guarded σ ε β} {P : TemporaryNames → α → Prop}
    {P' : TemporaryNames → β → Prop} (hx : Names env w g names x P)
    (hf : ∀ left a g₁ w₁, P left a → g₁.project = g.project → Names env w₁ g₁ left (f a) P') :
    Names env w g names (x >>= f) P' := by
  apply returns_bind hx
  · rintro t e g₁ ⟨hproject, left, hdraws, -⟩
    exact ⟨hproject, left, hdraws, nofun⟩
  · rintro t a g₁ w₁ - ⟨hproject, left, hdraws, hp⟩
    have hproject₁ : g₁.project = g.project := hproject
    apply Returns.mono (hf left a g₁ w₁ (hp a rfl) hproject₁)
    rintro t' r ⟨hproject', left', hdraws', hp'⟩
    rw [hproject₁] at hproject' hdraws'
    refine ⟨hproject', left', ?_, hp'⟩
    rw [Trace.exchanges_append]
    exact hdraws.append hdraws'

theorem note_bind {line : LogLine} {f : Unit → Guarded σ ε β} {P : TemporaryNames → β → Prop}
    (hf : ∀ w₁, Names env w₁ g names (f ()) P) :
    Names env w g names (MonadSession.note line >>= f) P := by
  apply returns_note_bind
  intro w₁
  exact hf w₁

theorem atStage {stage : Stage} {x : Guarded σ EngineError α} {P : TemporaryNames → α → Prop}
    (hx : Names env w g names x P) : Names env w g names (GuardedRun.atStage stage x) P := by
  apply returns_atStage hx
  · rintro t e g₁ ⟨hproject, left, hdraws, -⟩
    exact ⟨hproject, left, hdraws, nofun⟩
  · rintro t a g₁ ⟨hproject, left, hdraws, hp⟩
    exact ⟨hproject, left, hdraws, fun b hb => hp b (by cases hb; rfl)⟩

/-- Work with calls that make nothing leaves the names alone. -/
theorem of_performs {x : Guarded σ ε α} {K : Call → Prop} {E : ε → Prop}
    {P : List Exchange → α → Prop} (hx : Performs env w g x K E P)
    (hk : ∀ c, K c → c.isCreation = false) : Names env w g names x fun left _ => left = names := by
  apply Returns.mono hx
  rintro t r ⟨hcarries, -⟩
  refine ⟨by rw [hcarries.memory, project_rememberAll], names, ?_, fun _ _ => rfl⟩
  exact .of_plain fun y hy => hk _ (hcarries.kind y hy)

/-- A draw makes no call; it hands out the name that is drawn and what is left then. -/
theorem draw : Names env w g names (drawName names) fun left drawn =>
    names.draw.1 = .ok drawn.1 ∧ left = names ∧ drawn.2 = names.draw.2 := by
  unfold drawName
  cases hdraw : names.draw with
  | mk result later =>
    cases result with
    | ok name => exact pure ⟨rfl, rfl, rfl⟩
    | error fault => exact throw

end Names

variable {g : Guard} {names : TemporaryNames}

theorem names_createTemporary {name : TestSetName} (scenarios : List Scenario)
    (drawn : names.draw.1 = .ok name) :
    Names env w g names (createTemporary name scenarios) fun left _ => left = names.draw.2 := by
  apply (returns_createTemporary name scenarios).mono
  intro t r h
  generalize t.exchanges = xs at h ⊢
  cases h with
  | refused e => exact ⟨rfl, _, .create _ drawn (.nil _), nofun⟩
  | unfilled testSet e => exact ⟨rfl, _, .create _ drawn (.other rfl (.nil _)), nofun⟩
  | done testSet => exact ⟨rfl, _, .create _ drawn (.other rfl (.nil _)), fun _ _ => rfl⟩

theorem plain_of_assigns {items : List Item} (c : Call) (h : Assigns items c) : c.isCreation = false := by
  have hassigns := h.isAssignment
  cases c <;> first | rfl | cases hassigns

theorem names_deactivate (item : Item) :
    Names env w g names (deactivate item) fun left _ => left = names := by
  apply (returns_deactivate item).mono
  rintro t r ⟨a, hx, rfl⟩
  have hproject : (g.rememberDeactivated item).project = g.project := by
    unfold rememberDeactivated
    split <;> rfl
  rw [hx]
  exact ⟨hproject, _, .other rfl (.nil _), fun _ _ => rfl⟩

theorem names_assignAll (testSet : TestSet) (items : List Item) :
    Names env w g names (assignAll testSet items) fun left _ => left = names :=
  .of_performs (performs_assignAll testSet items items (List.Subset.refl _) (E := fun _ => True)
    fun _ => trivial) plain_of_assigns

theorem names_assign (item : Item) (testSet : TestSet) :
    Names env w g names (assign item testSet) fun left _ => left = names :=
  .of_performs (performs_assign item testSet (List.mem_singleton_self item)) plain_of_assigns

/-- Action by action the names that are left are handed on. -/
theorem names_applyActions (actions : List ItemAction) :
    Names env w g names (applyActions names actions) fun _ _ => True := by
  induction actions generalizing g w names with
  | nil => exact .pure trivial
  | cons action rest ih =>
    cases action with
    | deactivate item =>
      unfold applyActions
      apply Names.bind (names_deactivate item).atStage
      rintro left u g₁ w₁ rfl -
      exact ih
    | filter item scenarios =>
      unfold applyActions
      apply Names.bind Names.draw
      rintro left ⟨name, later⟩ g₁ w₁ ⟨hdrawn, rfl, hlater⟩ -
      obtain rfl : later = left.draw.2 := hlater
      apply Names.bind (names_createTemporary scenarios hdrawn).atStage
      rintro left' testSet g₂ w₂ rfl -
      apply Names.bind (names_assign item testSet).atStage
      rintro left' u g₃ w₃ rfl -
      exact ih

theorem names_applyPlan (plan : Plan) :
    Names env w g names (applyPlan names plan) fun _ _ => True := by
  cases plan with
  | unfiltered => exact .note_bind fun w₁ => .pure trivial
  | perItem actions => exact names_applyActions actions
  | shared scenarios items =>
    unfold applyPlan
    apply Names.bind Names.draw
    rintro left ⟨name, later⟩ g₁ w₁ ⟨hdrawn, rfl, -⟩ -
    apply Names.bind (names_createTemporary scenarios hdrawn).atStage
    rintro left' testSet g₂ w₂ rfl -
    split
    · exact .note_bind fun w₃ => (names_assignAll testSet items).mono fun _ _ _ => trivial
    · exact (names_assignAll testSet items).mono fun _ _ _ => trivial

theorem plain_of_redirect (c : Call) (h : c.isRedirect = true) : c.isCreation = false := by
  cases c <;> first | rfl | cases h

/-- Before and after the changes to the items, nothing is made. -/
theorem traces_drawing (ctx : Orchestration) (request : ExecutionRequest) (plan : Plan) :
    Traces env w (under g ((Task.execution request plan names).perform ctx)) fun t _ =>
      ∃ left, Draws g.project names t.exchanges left := by
  obtain ⟨event, message, line, hconduct, -⟩ :=
    Task.perform_eq (σ := σ) ctx (.execution request plan names)
  -- what is changed: the directories, then the items
  have hchanges : Names env w g names (do
      GuardedRun.atStage .mutate (Guard.redirectDirectories (some request.dataDir)
        (some request.reportDir))
      applyPlan names plan) fun _ _ => True := by
    apply Names.bind (Names.of_performs (performs_redirectDirectories _ _) plain_of_redirect).atStage
    rintro left u g₁ w₁ rfl -
    exact names_applyPlan plan
  rw [hconduct, Task.conduct, ← bind_assoc]
  apply Guarded.traces_bind hchanges
  · rintro t e g₁ ⟨-, left, hdraws, -⟩
    exact ⟨left, hdraws⟩
  rintro t u g₁ w₁ - ⟨hproject, left, hdraws, -⟩
  apply (Task.traces_labour ctx (.execution request plan names) event message line).mono
  rintro t' o ⟨o', -, hlabour⟩
  have hlast : Draws g.project left t'.exchanges left :=
    .of_plain fun x hx => (Call.inert_of_isWork (hlabour.working.isWork x hx)).1
  exact ⟨left, by rw [Trace.exchanges_append]; exact hdraws.append hlast⟩

/-- A run that makes no test set, or one that has listed those of a project and makes further ones there
under drawn names. -/
inductive Christens (ctx : Orchestration) : Trace → Prop
  | plain {t} (plain : ∀ x ∈ t.exchanges, x.call.isCreation = false) : Christens ctx t
  | drawn {planning rest project testSets left}
    (plain : ∀ x ∈ planning.exchanges, x.call.isCreation = false)
    (listed : ⟨.testSets project, .ok testSets⟩ ∈ planning.exchanges)
    (draws : Draws project (.of ctx.tempPattern (testSets.map (·.name.text))) rest.exchanges left) :
    Christens ctx (planning ++ rest)

theorem Request.Prepared.listed {ctx : Orchestration} {request : ExecutionRequest} {xs : List Exchange}
    {task : Task} {g : Guard} (h : Request.Prepared ctx (.execution request) xs task g) :
    ∃ plan testSets, ⟨.testSets g.project, .ok testSets⟩ ∈ xs ∧
      task = .execution request plan (.of ctx.tempPattern (testSets.map (·.name.text))) := by
  obtain ⟨data, report, opened, required, planned⟩ := h
  cases planned with
  | @execution _ xs ys requested plan testSets resolved devised =>
    exact ⟨plan, testSets, by simp, rfl⟩

theorem traces_christens (ctx : Orchestration) (request : ExecutionRequest) :
    Traces env w (Attempt.executeTestCases ctx request).run fun t _ => Christens ctx t := by
  have hpreparing (planning : Trace) {directories : Option (Path × Path)}
      (h : (Request.execution request).Preparing planning.exchanges directories) :
      ∀ x ∈ planning.exchanges, x.call.isCreation = false :=
    fun x hx => (Call.inert_of_isEffect (h.pure x hx)).1
  refine traces_parts (Request.returns_prepare ctx (.execution request))
    (P := fun planning task g work _ => Christens ctx (planning ++ work))
    (Q := fun g restoration _ => ∀ x ∈ restoration.exchanges, x.call.isCreation = false)
    ?_ ?_ (fun planning e h => .plain (hpreparing planning h)) (fun _ _ _ _ _ h => h) ?_
  · rintro planning task g w₁ - ⟨hprepare, hprepared⟩
    obtain ⟨plan, testSets, hlisted, rfl⟩ := hprepared.listed
    apply (traces_drawing ctx request plan).mono
    rintro work o ⟨left, hdraws⟩
    exact .drawn (hpreparing planning hprepare) hlisted hdraws
  · intro g w₂
    apply (returns_restoration g).mono
    intro restoration failures h x hx
    exact (h.restores.comprises.undoes (List.Subset.refl _) x hx).uncreating
  · intro planning task g work result g' restoration failures _ hwork hrestore
    dsimp only
    rw [← Trace.append_assoc]
    have hlast (line : LogLine) : ∀ x ∈ (restoration ++ .noted line).exchanges,
        x.call.isCreation = false := by
      rwa [Trace.exchanges_append, Trace.exchanges_noted, List.append_nil]
    generalize planning ++ work = t at hwork ⊢
    cases hwork with
    | plain plain =>
      refine .plain fun x hx => ?_
      rw [Trace.exchanges_append, List.mem_append] at hx
      exact hx.elim (plain x) (hlast _ x)
    | drawn plain listed draws =>
      have hdraws := draws.append (.of_plain (hlast ((Request.execution request).closing
        (concludeResult (result.map fun _ => (Request.execution request).outcome g') failures))))
      rw [← Trace.exchanges_append] at hdraws
      rw [Trace.append_assoc]
      exact .drawn plain listed hdraws

/-- Whatever moment a test set is asked for, its name is not there. -/
theorem Christens.fresh {ctx : Orchestration} {t : Trace} (h : Christens ctx t)
    {names : σ → ObjectId → List String} (hr : Registers env names) {s : σ}
    (hgenuine : env.Genuine s t.events) {before after : List Event} {project : Project}
    {name : TestSetName} {answer : Except EngineError TestSet}
    (hsplit : t.events = before ++ .asked (.createTestSet project name) answer :: after) :
    name.text ∉ names (env.replay s before) project.id := by
  cases h with
  | plain plain =>
    have hasked : ⟨.createTestSet project name, answer⟩ ∈ t.exchanges := by
      rw [Trace.exchanges, Event.mem_exchanges, hsplit]
      exact List.mem_append_right _ List.mem_cons_self
    cases plain _ hasked
  | @drawn planning rest listing testSets left plain listed draws =>
    rw [Trace.events_append] at hsplit hgenuine
    rcases append_split hsplit with ⟨before', rfl, hrest⟩ | ⟨after', hplanning, -⟩
    · rw [Environment.genuine_append] at hgenuine
      rw [Trace.exchanges, hrest, List.filterMap_append] at draws
      rw [Environment.replay_append]
      exact hr.fresh before' _ draws (hr.listed_subset hgenuine.1 plain listed)
    · have hasked : ⟨.createTestSet project name, answer⟩ ∈ planning.exchanges := by
        rw [Trace.exchanges, Event.mem_exchanges, hplanning]
        exact List.mem_append_right _ List.mem_cons_self
      cases plain _ hasked

/-- Each search for a name ends; with a prefix that names can begin with, any number of draws give as many
names, made from the least numbers whose names are not taken. A run never asks for a test set by a name that
the project has; so an engine that refuses only such names, and to which nobody else adds any, refuses none. -/
theorem temporaryNames_fresh (pattern : String) (hpattern : Text.trim pattern ≠ "")
    (hplain : (Text.trim pattern).toList.any Text.isControl = false) :
    (∀ names : TemporaryNames, names.Seeks names.next names.freeNumber) ∧
    (∀ (taken : List String) (k : Nat), ∃ (numbers : List Nat) (issued : List TestSetName),
      (TemporaryNames.of pattern taken).drawn k = issued.map .ok ∧
      issued.map (·.text) = numbers.map (fun n => s!"{Text.trim pattern} {n}") ∧
      numbers.length = k ∧
      Smallest (fun n => 1 ≤ n ∧ s!"{Text.trim pattern} {n}" ∉ taken) numbers ∧
      issued.Nodup ∧ ∀ name ∈ issued, name.text ∉ taken) ∧
    ∀ (σ : Type) (env : Environment σ) (names : σ → ObjectId → List String), Registers env names →
      ∀ (ctx : Orchestration) (request : ExecutionRequest) (w : World σ),
        ∃ events, (Session.run (Attempt.executeTestCases ctx request).run env w).2.events =
            w.events ++ events ∧
          ∀ before project name answer after,
            events = before ++ .asked (.createTestSet project name) answer :: after →
              name.text ∉ names (env.replay w.outside before) project.id ∧
                (RefusesTaken env names → ∀ method message log,
                  answer ≠ .error (.application method message log)) := by
  refine ⟨TemporaryNames.seeks_freeNumber, fun taken k => ?_, ?_⟩
  · let names := TemporaryNames.of pattern taken
    have hblank : pattern.toList.all Text.isBlank = false :=
      Bool.eq_false_iff.mpr (mt Text.isBlankText_iff.mp hpattern)
    obtain ⟨c, rest, htrim, hc⟩ := Text.trimChars_eq_cons hblank
    have hstem : names.stem.toList = c :: rest := by
      rw [show names.stem = Text.trim pattern from rfl, Text.trim, String.toList_ofList, htrim]
    have hparse (n : Nat) : ∃ name, (Name.parse (names.candidate n) : Except NameFault TestSetName) = .ok name :=
      (TemporaryNames.parse_candidate_eq_ok hstem hc n).mpr hplain
    choose name hname using hparse
    have htext (n : Nat) : (name n).text = names.candidate n := (Name.parse_eq_ok_iff.mp (hname n)).symm
    have hsmallest := names.numbers_smallest k taken fun n _ => Iff.rfl
    refine ⟨names.numbers k, (names.numbers k).map name, ?_, ?_, names.numbers_length k, hsmallest, ?_, ?_⟩
    · rw [TemporaryNames.drawn_eq, List.map_map]
      exact List.map_congr_left fun n _ => hname n
    · rw [List.map_map]
      exact List.map_congr_left fun n _ => htext n
    · have hinjective : Function.Injective name := fun n m h => by
        apply names.candidate_injective
        rw [← htext, ← htext, h]
      exact List.Nodup.map hinjective (hsmallest.ascending.imp Nat.ne_of_lt)
    · intro issued hissued
      obtain ⟨n, hn, rfl⟩ := List.mem_map.mp hissued
      rw [htext]
      exact (hsmallest.holds n hn).2
  · intro σ env names hregisters ctx request w
    have htraces : Traces env w (Attempt.executeTestCases ctx request).run fun t _ => Christens ctx t :=
      traces_christens ctx request
    obtain ⟨t, hl, hchristens⟩ := htraces
    refine ⟨t.events, hl.events, fun before project name answer after hsplit => ?_⟩
    have hfresh := hchristens.fresh hregisters hl.genuine hsplit
    refine ⟨hfresh, fun hrefuses method message log hanswer => ?_⟩
    -- the answer is the engine's own, and it gives one like this to names that are there alone
    have hgives := hl.genuine
    rw [hsplit, Environment.genuine_append] at hgives
    have hown : answer = (env.answer (.createTestSet project name) (env.replay w.outside before)).1 :=
      hgives.2.1
    exact hfresh (hrefuses project name _ method message log (hown.symm.trans hanswer))

/-- What a call puts among the test sets has the name that it asks for. -/
theorem Call.Stocks.gains {call : Call} {reply : call.Reply} {sh sh' : Shelf}
    (h : call.Stocks reply sh sh') : ∀ made ∈ sh', made ∈ sh ∨ ∃ project name,
      call = .createTestSet project name ∧ project.id = made.project ∧ made.testSet.name = name := by
  intro made hmade
  cases call with
  | createTestSet project name =>
    obtain ⟨hname, before, after, rfl, rfl⟩ := h
    rcases List.mem_append.mp hmade with hbefore | hrest
    · exact .inl (List.mem_append_left _ hbefore)
    · rcases List.mem_cons.mp hrest with rfl | hafter
      · exact .inr ⟨project, name, rfl, rfl, hname⟩
      · exact .inl (List.mem_append_right _ hafter)
  | deleteTestSet project testSet =>
    obtain rfl := h
    exact .inl (Shelf.mem_without.mp hmade).1
  | testSets project =>
    obtain ⟨-, rfl⟩ := h
    exact .inl hmade
  | _ =>
    obtain rfl := h
    exact .inl hmade

/-- An engine that keeps test sets registers their names. -/
theorem Kept.registers {shelf : σ → Shelf} (h : Kept env shelf Exchange.Stocks) :
    Registers env fun s id => ((shelf s).listed id).map (·.name.text) where
  lists project s testSets hanswer := by
    have hstocks := h.answers (.testSets project) s
    rw [hanswer] at hstocks
    obtain ⟨hread, -⟩ := hstocks
    rw [hread]
    exact List.Subset.refl _
  gains call s id text htext := by
    obtain ⟨testSet, hlisted, rfl⟩ := List.mem_map.mp htext
    have hmade := Shelf.mem_listed.mp hlisted
    have hold (hsame : (⟨id, testSet⟩ : Placed) ∈ shelf s) :
        testSet.name.text ∈ ((shelf s).listed id).map (·.name.text) :=
      List.mem_map.mpr ⟨testSet, Shelf.mem_listed.mpr hsame, rfl⟩
    have hgains {reply : call.Reply} (hstocks : call.Stocks reply (shelf s) (shelf (env.answer call s).2)) :
        testSet.name.text ∈ ((shelf s).listed id).map (·.name.text) ∨ ∃ project name,
          call = .createTestSet project name ∧ project.id = id ∧ name.text = testSet.name.text := by
      rcases hstocks.gains _ hmade with hsame | ⟨project, name, hcall, hproject, hname⟩
      · exact .inl (hold hsame)
      · exact .inr ⟨project, name, hcall, hproject, by rw [← hname]⟩
    have hstocks := h.answers call s
    cases hanswer : (env.answer call s).1 with
    | ok reply =>
      rw [hanswer] at hstocks
      exact hgains hstocks
    | error e =>
      rw [hanswer] at hstocks
      rcases hstocks with hsame | ⟨reply, hstocks⟩
      · rw [hsame] at hmade
        exact .inl (hold hmade)
      · exact hgains hstocks
  pauses n s id := by
    rw [h.pauses]
    exact List.Subset.refl _
  launches executable arguments s id := by
    rw [h.launches]
    exact List.Subset.refl _

namespace Rig

/-- The call asks for a test set by a name that the project has. -/
def isTaken : Call → Rig → Bool
  | .createTestSet project name, rig =>
    name.text ∈ (rig.contents.shelf.listed project.id).map (·.name.text)
  | _, _ => false

/-- The answer of an engine that does what it is told, but makes no two test sets of one name. -/
def answerChoosily (call : Call) (rig : Rig) : Except EngineError call.Reply × Rig :=
  if rig.isTaken call then (.error (.application call.method "duplicate name" []), rig)
  else
    match rig.perform call with
    | some (reply, after) => (.ok reply, after)
    | none => (.error (.communication call.method "out of ids"), rig)

def choosy : Environment Rig := { Rig.environment with answer := answerChoosily }

theorem choosy_kept : Kept choosy (·.contents.shelf) Exchange.Stocks where
  answers call rig := by
    change Exchange.Stocks ⟨call, (rig.answerChoosily call).1⟩ rig.contents.shelf
      (rig.answerChoosily call).2.contents.shelf
    unfold answerChoosily
    split
    · exact .inl rfl
    · split
      · next reply after hperform => exact Contents.stocks_of_takes (takes_of_perform hperform)
      · exact .inl rfl
  pauses _ _ := rfl
  launches _ _ _ := rfl

theorem choosy_refuses :
    RefusesTaken choosy fun rig id => (rig.contents.shelf.listed id).map (·.name.text) := by
  intro project name rig method message log h
  change (rig.answerChoosily (.createTestSet project name)).1 = _ at h
  unfold answerChoosily at h
  split at h
  · next htaken => exact of_decide_eq_true htaken
  · split at h <;> cases h

/-- A rig whose project has a test set of the name that would be drawn first. -/
def crowded : Rig :=
  let leftover : KeptSet := ⟨⟨"p"⟩, ⟨⟨"t3"⟩, ⟨"JENKINS Exec 1", by decide +kernel⟩⟩, []⟩
  (small []).become { (small []).contents with testSets := (small []).contents.testSets ++ [leftover] } rfl

end Rig

/-- Among others' names the least free ones are drawn, and a run on an engine that makes no two test sets of
one name gets the one that it asks for. -/
theorem crowded_names_fresh : Text.trim "JENKINS Exec" ≠ "" ∧
    (Text.trim "JENKINS Exec").toList.any Text.isControl = false ∧
    (∃ issued : List TestSetName, (TemporaryNames.of "JENKINS Exec" ["JENKINS Exec 1", "JENKINS Exec 3"]).drawn 3 =
      issued.map .ok ∧ issued.Nodup) ∧
    ∃ events before project name answer after,
      (Session.run (Attempt.executeTestCases { rounds := 3 } loginRequest).run Rig.choosy
        { outside := Rig.crowded }).2.events = [] ++ events ∧
      events = before ++ .asked (.createTestSet project name) answer :: after ∧
      ∀ method message log, answer ≠ .error (.application method message log) := by
  have hstem : Text.trim "JENKINS Exec" ≠ "" := by decide +kernel
  have hplain : (Text.trim "JENKINS Exec").toList.any Text.isControl = false := by decide +kernel
  obtain ⟨-, hdraws, hruns⟩ := temporaryNames_fresh "JENKINS Exec" hstem hplain
  obtain ⟨numbers, issued, hdrawn, -, -, -, hnodup, -⟩ := hdraws ["JENKINS Exec 1", "JENKINS Exec 3"] 3
  obtain ⟨events, hevents, hfresh⟩ := hruns Rig Rig.choosy _ Rig.choosy_kept.registers { rounds := 3 }
    loginRequest { outside := Rig.crowded }
  have hcreates : (events.filterMap Event.exchange?).any (·.call.isCreation) = true := by
    rw [List.nil_append] at hevents
    rw [← hevents]
    decide +kernel
  obtain ⟨⟨call, answer⟩, hasked, hcreation⟩ := List.any_eq_true.mp hcreates
  obtain ⟨project, name, rfl⟩ : ∃ project name, call = .createTestSet project name := by
    cases call <;> first | exact ⟨_, _, rfl⟩ | cases hcreation
  obtain ⟨before, after, hsplit⟩ := List.append_of_mem (Event.mem_exchanges.mp hasked)
  exact ⟨hstem, hplain, ⟨issued, hdrawn, hnodup⟩, events, before, project, name, answer, after, hevents, hsplit,
    (hfresh before project name answer after hsplit).2 Rig.choosy_refuses⟩

end GuardedRun
