import GuardedRun.Proofs.Memory
import GuardedRun.Proofs.Restoration

/-! A guard put to use by hand: operations in any order, each going well or not, and a restore after
them. Whatever becomes of an operation, its calls are changes that the guard remembers. -/

namespace GuardedRun

open Session MonadSession Guarded

variable {σ : Type} {env : Environment σ} {w : World σ}

namespace Guard

/-- What may be done under a guard. -/
inductive Operation
  | redirect (dataDir reportDir : Option Path)
  | assign (item : Item) (testSet : TestSet)
  | deactivate (item : Item)
  | createTemporary (name : TestSetName) (scenarios : List Scenario)

namespace Operation

/-- Does what is asked for; the guard is kept, however it ends. -/
def perform (g : Guard) : Operation → Session σ Guard
  | redirect dataDir reportDir =>
    under g (redirectDirectories dataDir reportDir : Guarded σ EngineError Unit) >>= fun r => pure r.2
  | assign item testSet =>
    under g (Guard.assign item testSet : Guarded σ EngineError Unit) >>= fun r => pure r.2
  | deactivate item =>
    under g (Guard.deactivate item : Guarded σ EngineError Unit) >>= fun r => pure r.2
  | createTemporary name scenarios =>
    under g (Guard.createTemporary name scenarios : Guarded σ EngineError TestSet) >>= fun r => pure r.2

def performAll : List Operation → Guard → Session σ Guard
  | [], g => pure g
  | operation :: rest, g => operation.perform g >>= performAll rest

/-- The calls that an operation may make. -/
def Makes : Operation → Call → Prop
  | redirect _ _, call => call.isRedirect = true
  | assign item _, call => Assigns [item] call
  | deactivate item, call => call = .setItemActive item false
  | createTemporary _ _, call => Change [] call

theorem Makes.reads {operation : Operation} {item : Item} (h : operation.Makes (.itemTestSet item)) :
    ∃ testSet, operation = assign item testSet := by
  cases operation with
  | redirect dataDir reportDir => exact absurd h Bool.false_ne_true
  | assign item' testSet =>
    have hitem := h.item_mem item rfl
    exact ⟨testSet, by rw [List.mem_singleton.mp hitem]⟩
  | deactivate item' => cases h
  | createTemporary name scenarios => exact absurd (h.item_mem item rfl) List.not_mem_nil

theorem Makes.switches {operation : Operation} {item : Item} {active : Bool}
    (h : operation.Makes (.setItemActive item active)) : operation = deactivate item := by
  cases operation with
  | redirect dataDir reportDir => exact absurd h Bool.false_ne_true
  | assign item' testSet => exact absurd h.isAssignment Bool.false_ne_true
  | deactivate item' =>
    cases h
    rfl
  | createTemporary name scenarios => exact absurd (h.item_mem item rfl) List.not_mem_nil

/-- Work that is carried out as changes leaves a guard that remembers its calls. -/
theorem returns_guard {α : Type} {g : Guard} {x : Guarded σ EngineError α} {K : Call → Prop}
    (h : Returns env w (under g x) fun t r => Carries K g t r) :
    Returns env w (under g x >>= fun r => pure r.2) fun t g' =>
      g.Blocks t.exchanges ∧ g' = g.rememberAll t.exchanges ∧ ∀ x ∈ t.exchanges, K x.call := by
  apply h.bind
  intro t r w₁ _ hcarries
  apply Returns.pure
  rw [Trace.append_nil]
  exact ⟨hcarries.blocks, hcarries.memory, hcarries.kind⟩

theorem returns_perform (operation : Operation) (g : Guard) :
    Returns env w (operation.perform g) fun t g' => g.Blocks t.exchanges ∧
      g' = g.rememberAll t.exchanges ∧ ∀ x ∈ t.exchanges, operation.Makes x.call := by
  cases operation with
  | redirect dataDir reportDir =>
    exact returns_guard (Returns.mono (performs_redirectDirectories dataDir reportDir) fun _ _ h => h.1)
  | assign item testSet =>
    have hitem : item ∈ [item] := List.mem_singleton.mpr rfl
    exact returns_guard (Returns.mono (performs_assign item testSet hitem) fun _ _ h => h.1)
  | deactivate item =>
    apply returns_guard
    apply (returns_deactivate item).mono
    intro t r h
    obtain ⟨a, hx, rfl⟩ := h
    apply Carries.of_block <;> rw [hx]
    · exact .deactivate item a
    · rfl
    · simp [Makes]
    · simp
    · simp
  | createTemporary name scenarios =>
    exact returns_guard (Returns.mono (performs_createTemporary name scenarios []) fun _ _ h => h.1)

theorem returns_performAll (operations : List Operation) (g : Guard) :
    Returns env w (performAll operations g) fun t g' => g.Blocks t.exchanges ∧
      g' = g.rememberAll t.exchanges ∧
        ∀ x ∈ t.exchanges, ∃ operation ∈ operations, operation.Makes x.call := by
  induction operations generalizing g w with
  | nil => exact .pure ⟨.nil g, rfl, nofun⟩
  | cons operation rest ih =>
    apply (returns_perform operation g).bind
    intro t g₁ w₁ _ h
    obtain ⟨hblocks, rfl, hmakes⟩ := h
    apply (ih (g.rememberAll t.exchanges)).mono
    intro t' g' h'
    obtain ⟨hblocks', rfl, hmakes'⟩ := h'
    rw [Trace.exchanges_append]
    refine ⟨hblocks.append hblocks', (rememberAll_append g _ _).symm, ?_⟩
    intro x hx
    rcases List.mem_append.mp hx with hx | hx
    · exact ⟨operation, List.mem_cons_self, hmakes x hx⟩
    · obtain ⟨other, hother, hmade⟩ := hmakes' x hx
      exact ⟨other, List.mem_cons_of_mem _ hother, hmade⟩

end Operation

/-- Guards a configuration, does some operations and restores it. -/
def rehearse (project : Project) (configuration : Configuration) (operations : List Operation) :
    Session σ (Except EngineError (List RestoreFailure)) :=
  (start project configuration).run >>= fun
    | .error e => pure (.error e)
    | .ok g => Operation.performAll operations g >>= fun g' =>
      g'.restore >>= fun failures => pure (.ok failures)

/-- What a guard is started with. -/
inductive Started (project : Project) (c : Configuration) : List Exchange → Except EngineError Guard → Prop
  | unread (e) : Started project c [⟨.dataDir c, .error e⟩] (.error e)
  | half (data e) : Started project c [⟨.dataDir c, .ok data⟩, ⟨.reportDir c, .error e⟩] (.error e)
  | both (data report) : Started project c [⟨.dataDir c, .ok data⟩, ⟨.reportDir c, .ok report⟩]
    (.ok { project, configuration := c, formerDataDir := data, formerReportDir := report })

theorem returns_start (project : Project) (c : Configuration) :
    Returns env w (start project c).run fun t r => Started project c t.exchanges r := by
  unfold start
  apply Attempt.returns_ask_bind
  · intro raised e
    simpa using Started.unread e
  · intro raised data w₁
    apply Attempt.returns_ask_bind
    · intro raised' e
      simpa using Started.half data e
    · intro raised' report w₂
      apply Returns.pure
      simpa using Started.both data report

/-- The course of operations under a guard: its start fails, or it is restored after them. -/
inductive Rehearsed (project : Project) (c : Configuration) (operations : List Operation) :
    List Exchange → Except EngineError (List RestoreFailure) → Prop
  | unstarted {xs e} (started : Started project c xs (.error e)) :
    Rehearsed project c operations xs (.error e)
  | restored {xs ys zs g failures} (started : Started project c xs (.ok g)) (blocks : g.Blocks ys)
    (made : ∀ x ∈ ys, ∃ operation ∈ operations, operation.Makes x.call)
    (restores : (g.rememberAll ys).Restores zs failures) :
    Rehearsed project c operations (xs ++ (ys ++ zs)) (.ok failures)

theorem returns_rehearse (project : Project) (c : Configuration) (operations : List Operation) :
    Returns env w (rehearse project c operations) fun t r =>
      Rehearsed project c operations t.exchanges r := by
  unfold rehearse
  apply (returns_start project c).bind
  intro t r w₁ _ hstarted
  cases r with
  | error e =>
    apply Returns.pure
    rw [Trace.append_nil]
    exact .unstarted hstarted
  | ok g =>
    apply (Operation.returns_performAll operations g).bind
    intro t' g' w₂ _ h
    obtain ⟨hblocks, rfl, hmade⟩ := h
    apply (returns_restore _).bind
    intro t'' failures w₃ _ h
    apply Returns.pure
    simpa using Rehearsed.restored hstarted hblocks hmade h.1

end Guard

end GuardedRun
