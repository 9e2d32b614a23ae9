import GuardedRun.Proofs.Trace

/-! The memory of a guard is what its calls say. Every change made under a guard is a block of a few
calls; the memory after any number of blocks is read off the calls and their answers alone. -/

namespace GuardedRun

variable {σ ε α β : Type}

namespace Exchange

def succeeded (x : Exchange) : Prop := x.answer.isOk = true

@[simp] theorem succeeded_mk (call : Call) (a : Except EngineError call.Reply) :
    (⟨call, a⟩ : Exchange).succeeded ↔ a.isOk = true :=
  Iff.rfl

@[simp] theorem isOk_ok (a : α) : (Except.ok a : Except ε α).isOk = true := rfl

@[simp] theorem isOk_error (e : ε) : (Except.error e : Except ε α).isOk = false := rfl

end Exchange

namespace Guard

/-- What a guard remembers after a call of a change. -/
def remember (g : Guard) (x : Exchange) : Guard :=
  match x with
  | ⟨.setDataDir _ _, _⟩ => g.markDirectories
  | ⟨.setReportDir _ _, _⟩ => g.markDirectories
  | ⟨.itemTestSet item, .ok former⟩ => g.rememberTestSet item former
  | ⟨.createTestSet _ _, .ok testSet⟩ => g.rememberTemporary testSet
  | ⟨.setItemActive item _, _⟩ => g.rememberDeactivated item
  | _ => g

def rememberAll (g : Guard) (xs : List Exchange) : Guard := xs.foldl remember g

@[simp] theorem rememberAll_nil (g : Guard) : g.rememberAll [] = g := rfl

@[simp] theorem rememberAll_cons (g : Guard) (x : Exchange) (xs : List Exchange) :
    g.rememberAll (x :: xs) = (g.remember x).rememberAll xs := rfl

@[simp] theorem rememberAll_append (g : Guard) (xs ys : List Exchange) :
    g.rememberAll (xs ++ ys) = (g.rememberAll xs).rememberAll ys := by
  simp only [rememberAll, List.foldl_append]

theorem remember_guards (g : Guard) (x : Exchange) :
    (g.remember x).project = g.project ∧ (g.remember x).configuration = g.configuration ∧
      (g.remember x).formerDataDir = g.formerDataDir ∧
      (g.remember x).formerReportDir = g.formerReportDir := by
  unfold remember
  split
  · exact ⟨rfl, rfl, rfl, rfl⟩
  · exact ⟨rfl, rfl, rfl, rfl⟩
  · exact ⟨rfl, rfl, rfl, rfl⟩
  · exact ⟨rfl, rfl, rfl, rfl⟩
  · unfold rememberDeactivated
    split <;> exact ⟨rfl, rfl, rfl, rfl⟩
  · exact ⟨rfl, rfl, rfl, rfl⟩

theorem rememberAll_guards (g : Guard) (xs : List Exchange) :
    (g.rememberAll xs).project = g.project ∧ (g.rememberAll xs).configuration = g.configuration ∧
      (g.rememberAll xs).formerDataDir = g.formerDataDir ∧
      (g.rememberAll xs).formerReportDir = g.formerReportDir := by
  induction xs generalizing g with
  | nil => exact ⟨rfl, rfl, rfl, rfl⟩
  | cons x xs ih =>
    obtain ⟨hproject, hconfiguration, hdata, hreport⟩ := g.remember_guards x
    have hrest := ih (g.remember x)
    rwa [hproject, hconfiguration, hdata, hreport] at hrest

@[simp] theorem project_rememberAll (g : Guard) (xs : List Exchange) :
    (g.rememberAll xs).project = g.project :=
  (g.rememberAll_guards xs).1

@[simp] theorem configuration_rememberAll (g : Guard) (xs : List Exchange) :
    (g.rememberAll xs).configuration = g.configuration :=
  (g.rememberAll_guards xs).2.1

@[simp] theorem formerDataDir_rememberAll (g : Guard) (xs : List Exchange) :
    (g.rememberAll xs).formerDataDir = g.formerDataDir :=
  (g.rememberAll_guards xs).2.2.1

@[simp] theorem formerReportDir_rememberAll (g : Guard) (xs : List Exchange) :
    (g.rememberAll xs).formerReportDir = g.formerReportDir :=
  (g.rememberAll_guards xs).2.2.2

/-- The calls that one change makes under a guard. An item's test set is read directly before the
item is first given another one; a test set is filled directly after it was made. -/
inductive Block (g : Guard) : List Exchange → Prop
  | redirectData (path a) : g.Block [⟨.setDataDir g.configuration path, a⟩]
  | redirectReport (path a) : g.Block [⟨.setReportDir g.configuration path, a⟩]
  | unread (item e) (fresh : item ∉ g.reassigned) : g.Block [⟨.itemTestSet item, .error e⟩]
  | firstAssign (item former testSet a) (fresh : item ∉ g.reassigned) :
    g.Block [⟨.itemTestSet item, .ok former⟩, ⟨.setItemTestSet item (some testSet), a⟩]
  | nextAssign (item testSet a) (known : item ∈ g.reassigned) :
    g.Block [⟨.setItemTestSet item (some testSet), a⟩]
  | deactivate (item a) : g.Block [⟨.setItemActive item false, a⟩]
  | uncreated (name e) : g.Block [⟨.createTestSet g.project name, .error e⟩]
  | create (name testSet scenarios a) :
    g.Block [⟨.createTestSet g.project name, .ok testSet⟩, ⟨.addScenarios testSet scenarios, a⟩]

inductive Blocks : Guard → List Exchange → Prop
  | nil (g) : Blocks g []
  | cons {g : Guard} {xs ys : List Exchange} (first : g.Block xs)
    (rest : Blocks (g.rememberAll xs) ys) : Blocks g (xs ++ ys)

namespace Blocks

variable {g : Guard} {xs ys : List Exchange}

theorem single (h : g.Block xs) : g.Blocks xs := by
  have hn := Blocks.cons h (.nil _)
  rwa [List.append_nil] at hn

theorem append (hx : g.Blocks xs) (hy : (g.rememberAll xs).Blocks ys) : g.Blocks (xs ++ ys) := by
  induction hx with
  | nil g => exact hy
  | cons first rest ih =>
    rw [List.append_assoc]
    rw [rememberAll_append] at hy
    exact .cons first (ih hy)

end Blocks

/-- Work under a guard that consists of changes with calls of some kind, is remembered in full, and
goes on as long as its calls succeed. -/
structure Carries (K : Call → Prop) (g : Guard) (t : Trace) (r : Except ε α × Guard) : Prop where
  blocks : g.Blocks t.exchanges
  memory : r.2 = g.rememberAll t.exchanges
  kind : ∀ x ∈ t.exchanges, K x.call
  /-- A failing call ends the work. -/
  halting : ∀ x ∈ t.exchanges.dropLast, x.succeeded
  faultless : r.1.isOk = true → ∀ x ∈ t.exchanges, x.succeeded

namespace Carries

variable {K : Call → Prop} {g g₁ : Guard} {t t' : Trace}

theorem still {r : Except ε α} (h : t.exchanges = []) : Carries K g t (r, g) := by
  constructor <;> simp [h, Blocks.nil]

theorem append {a : α} {r : Except ε β × Guard} (h : Carries K g t ((.ok a, g₁) : Except ε α × Guard))
    (h' : Carries K g₁ t' r) : Carries K g (t ++ t') r := by
  have hm : g₁ = g.rememberAll t.exchanges := h.memory
  have hs := h.faultless rfl
  refine ⟨?_, ?_, ?_, ?_, ?_⟩
  · rw [Trace.exchanges_append]
    exact h.blocks.append (hm ▸ h'.blocks)
  · rw [Trace.exchanges_append, rememberAll_append, ← hm]
    exact h'.memory
  · intro x hx
    rw [Trace.exchanges_append, List.mem_append] at hx
    exact hx.elim (h.kind x) (h'.kind x)
  · intro x hx
    rw [Trace.exchanges_append] at hx
    -- the last call is one of the second part, unless that has none
    by_cases hn : t'.exchanges = []
    · rw [hn, List.append_nil] at hx
      exact hs x (List.dropLast_subset _ hx)
    · rw [List.dropLast_append_of_ne_nil hn, List.mem_append] at hx
      exact hx.elim (hs x) (h'.halting x)
  · intro hr x hx
    rw [Trace.exchanges_append, List.mem_append] at hx
    exact hx.elim (hs x) (h'.faultless hr x)

theorem weaken {K' : Call → Prop} {r : Except ε α × Guard} (h : Carries K g t r)
    (hk : ∀ c, K c → K' c) : Carries K' g t r :=
  ⟨h.blocks, h.memory, fun x hx => hk _ (h.kind x hx), h.halting, h.faultless⟩

theorem congr {r : Except ε α × Guard} {ε' β : Type} {r' : Except ε' β × Guard}
    (h : Carries K g t r) (hg : r'.2 = r.2) (ho : r'.1.isOk = r.1.isOk) : Carries K g t r' :=
  ⟨h.blocks, hg.trans h.memory, h.kind, h.halting, fun hr => h.faultless (ho ▸ hr)⟩

end Carries

end Guard

open Guarded Session Guard

/-- Guarded work returns and is carried out as changes; where it ends well, its calls and its value
stand in a relation, and where it does not, its error is of some kind. -/
def Performs (env : Environment σ) (w : World σ) (g : Guard) (x : Guarded σ ε α) (K : Call → Prop)
    (E : ε → Prop) (P : List Exchange → α → Prop) : Prop :=
  Returns env w (under g x) fun t r => Carries K g t r ∧ (∀ e, r.1 = .error e → E e) ∧
    ∀ a, r.1 = .ok a → P t.exchanges a

namespace Performs

variable {env : Environment σ} {w : World σ} {g : Guard} {K : Call → Prop} {E : ε → Prop}

theorem pure {a : α} {P : List Exchange → α → Prop} (h : P [] a) :
    Performs env w g (pure a : Guarded σ ε α) K E P := by
  apply returns_pure
  refine ⟨.still rfl, nofun, fun b hb => ?_⟩
  cases hb
  exact h

theorem throw {e : ε} {P : List Exchange → α → Prop} (h : E e) :
    Performs env w g (throw e : Guarded σ ε α) K E P := by
  refine Returns.pure ⟨.still rfl, fun e' he => ?_, nofun⟩
  cases he
  exact h

theorem mono {x : Guarded σ ε α} {K' : Call → Prop} {P P' : List Exchange → α → Prop}
    (hx : Performs env w g x K E P) (hk : ∀ c, K c → K' c) (hp : ∀ xs a, P xs a → P' xs a) :
    Performs env w g x K' E P' :=
  Returns.mono hx fun _ _ h => ⟨h.1.weaken hk, h.2.1, fun a ha => hp _ a (h.2.2 a ha)⟩

theorem blaming {x : Guarded σ ε α} {E' : ε → Prop} {P : List Exchange → α → Prop}
    (hx : Performs env w g x K E P) (he : ∀ e, E e → E' e) : Performs env w g x K E' P :=
  Returns.mono hx fun _ _ h => ⟨h.1, fun e hr => he e (h.2.1 e hr), h.2.2⟩

theorem bind {x : Guarded σ ε α} {f : α → Guarded σ ε β} {P : List Exchange → α → Prop}
    {P' : List Exchange → β → Prop} (hx : Performs env w g x K E P)
    (hf : ∀ xs a w₁, P xs a →
      Performs env w₁ (g.rememberAll xs) (f a) K E fun ys b => P' (xs ++ ys) b) :
    Performs env w g (x >>= f) K E P' := by
  apply returns_bind hx
  · intro t e g₁ h
    obtain ⟨hc, he, -⟩ := h
    refine ⟨hc.congr rfl rfl, fun e' hr => ?_, nofun⟩
    cases hr
    exact he e rfl
  · intro t a g₁ w₁ _ h
    obtain ⟨hc, -, hp⟩ := h
    -- what comes next begins with the memory of the calls so far
    have hg : g₁ = g.rememberAll t.exchanges := hc.memory
    subst hg
    apply Returns.mono (hf t.exchanges a w₁ (hp a rfl))
    intro t' r h
    refine ⟨hc.append h.1, h.2.1, fun b hb => ?_⟩
    rw [Trace.exchanges_append]
    exact h.2.2 b hb

theorem note_bind {line : LogLine} {f : Unit → Guarded σ ε β} {P : List Exchange → β → Prop}
    (hf : ∀ w₁, Performs env w₁ g (f ()) K E P) :
    Performs env w g (MonadSession.note line >>= f) K E P := by
  apply returns_note_bind
  intro w₁
  apply Returns.mono (hf w₁)
  intro t r h
  have hn : Carries K g (.noted line) ((.ok (), g) : Except ε Unit × Guard) := .still rfl
  exact ⟨hn.append h.1, h.2⟩

theorem note {line : LogLine} {P : List Exchange → Unit → Prop} (h : P [] ()) :
    Performs env w g (MonadSession.note line : Guarded σ ε Unit) K E P := by
  apply returns_note
  exact ⟨.still rfl, nofun, fun _ _ => h⟩

/-- With its failing calls blamed on a stage, work has no errors but those of the stage. -/
theorem atStage {stage : Stage} {x : Guarded σ EngineError α} {E : OrchestrationError → Prop}
    {P : List Exchange → α → Prop} (hx : Performs env w g x K (fun _ => True) P)
    (he : ∀ e, E (.remoteFault stage e)) : Performs env w g (atStage stage x) K E P := by
  apply returns_atStage hx
  · intro t e g₁ h
    refine ⟨h.1.congr rfl rfl, fun e' hr => ?_, nofun⟩
    cases hr
    exact he e
  · intro t a g₁ h
    exact ⟨h.1.congr rfl rfl, nofun, fun b hb => h.2.2 b (by cases hb; rfl)⟩

end Performs

end GuardedRun
