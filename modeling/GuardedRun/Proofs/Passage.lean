import GuardedRun.Proofs.Trace

/-! What calls do to a state that only calls change. What each of them may do is left to a relation; the
state is any view of the outside. -/

namespace GuardedRun

variable {σ τ : Type}

/-- States before and after some exchanges, each of which does what a relation allows. -/
inductive Passes (step : Exchange → τ → τ → Prop) : τ → List Exchange → τ → Prop
  | nil (st) : Passes step st [] st
  | cons {st st₁ st' x xs} (first : step x st st₁) (rest : Passes step st₁ xs st') :
    Passes step st (x :: xs) st'

variable {step : Exchange → τ → τ → Prop} {st st' : τ} {xs ys : List Exchange}

@[simp] theorem passes_nil : Passes step st [] st' ↔ st' = st := by
  constructor
  · intro h
    cases h
    rfl
  · rintro rfl
    exact .nil st'

theorem passes_cons {x : Exchange} :
    Passes step st (x :: xs) st' ↔ ∃ st₁, step x st st₁ ∧ Passes step st₁ xs st' := by
  constructor
  · intro h
    cases h with
    | cons first rest => exact ⟨_, first, rest⟩
  · rintro ⟨st₁, first, rest⟩
    exact .cons first rest

theorem passes_singleton {x : Exchange} : Passes step st [x] st' ↔ step x st st' := by
  rw [passes_cons]
  constructor
  · rintro ⟨st₁, first, rest⟩
    rwa [passes_nil.mp rest]
  · intro h
    exact ⟨st', h, .nil st'⟩

theorem passes_append :
    Passes step st (xs ++ ys) st' ↔ ∃ st₁, Passes step st xs st₁ ∧ Passes step st₁ ys st' := by
  constructor
  · intro h
    induction xs generalizing st with
    | nil => exact ⟨st, .nil st, h⟩
    | cons x xs ih =>
      obtain ⟨st₁, first, rest⟩ := passes_cons.mp h
      obtain ⟨st₂, hxs, hys⟩ := ih rest
      exact ⟨st₂, .cons first hxs, hys⟩
  · rintro ⟨st₁, hxs, hys⟩
    induction hxs with
    | nil st => exact hys
    | cons first rest ih => exact .cons first (ih hys)

/-- An environment of which only calls change what is seen of it, each as a relation allows. -/
structure Kept (env : Environment σ) (view : σ → τ) (step : Exchange → τ → τ → Prop) : Prop where
  answers : ∀ call s, step ⟨call, (env.answer call s).1⟩ (view s) (view (env.answer call s).2)
  pauses : ∀ milliseconds s, view (env.pause milliseconds s) = view s
  launches : ∀ executable arguments s, view (env.launch executable arguments s).2 = view s

namespace Kept

variable {env : Environment σ} {view : σ → τ}

theorem step_of_gives (h : Kept env view step) {s : σ} {call : Call}
    {answer : Except EngineError call.Reply} (hgives : env.Gives s (.asked call answer)) :
    step ⟨call, answer⟩ (view s) (view (env.next s (.asked call answer))) := by
  have hanswer : answer = (env.answer call s).1 := hgives
  subst hanswer
  exact h.answers call s

/-- What is no call changes nothing that is seen. -/
theorem view_next (h : Kept env view step) (s : σ) {event : Event} (hnone : event.exchange? = none) :
    view (env.next s event) = view s := by
  cases event with
  | asked call answer => cases hnone
  | launched executable arguments result => exact h.launches executable arguments s
  | slept n => exact h.pauses n s
  | interrupted => rfl

theorem passes (h : Kept env view step) {s : σ} {events : List Event} (hgenuine : env.Genuine s events) :
    Passes step (view s) (events.filterMap Event.exchange?) (view (env.replay s events)) := by
  induction events generalizing s with
  | nil => exact .nil _
  | cons event rest ih =>
    obtain ⟨hgives, hrest⟩ := hgenuine
    have hlater := ih hrest
    cases event with
    | asked call answer => exact .cons (h.step_of_gives hgives) hlater
    | _ => rwa [h.view_next s rfl] at hlater

theorem passes_of_leads (h : Kept env view step) {w w' : World σ} {t : Trace} (hl : Leads env w t w') :
    Passes step (view w.outside) t.exchanges (view w'.outside) := by
  rw [hl.outside]
  exact h.passes hl.genuine

/-- What is seen at any moment of a history is what the calls before it have led to. -/
theorem passes_before (h : Kept env view step) {w w' : World σ} {t : Trace} (hl : Leads env w t w')
    {before after : List Event} (hsplit : t.events = before ++ after) :
    Passes step (view w.outside) (before.filterMap Event.exchange?)
        (view (env.replay w.outside before)) ∧
      t.exchanges = before.filterMap Event.exchange? ++ after.filterMap Event.exchange? := by
  have hgenuine := hl.genuine
  rw [hsplit, Environment.genuine_append] at hgenuine
  refine ⟨h.passes hgenuine.1, ?_⟩
  rw [Trace.exchanges, hsplit, List.filterMap_append]

end Kept

/-- Something holds at every call of a history, of what is seen before and after it. -/
def Environment.Always (env : Environment σ) (view : σ → τ) (Q : Exchange → τ → τ → Prop) (s : σ)
    (events : List Event) : Prop :=
  ∀ before call answer after, events = before ++ .asked call answer :: after →
    Q ⟨call, answer⟩ (view (env.replay s before)) (view (env.replay s (before ++ [.asked call answer])))

theorem Environment.Always.tail {env : Environment σ} {view : σ → τ} {Q : Exchange → τ → τ → Prop} {s : σ}
    {event : Event} {rest : List Event} (h : env.Always view Q s (event :: rest)) :
    env.Always view Q (env.next s event) rest := by
  intro before call answer after hsplit
  exact h (event :: before) call answer after (by rw [hsplit, List.cons_append])

/-- What holds at every call may be added to what each call is known to do. -/
theorem Kept.passes_always {env : Environment σ} {view : σ → τ} {Q : Exchange → τ → τ → Prop}
    (h : Kept env view step) {s : σ} {events : List Event} (hgenuine : env.Genuine s events)
    (halways : env.Always view Q s events) :
    Passes (fun x st st' => step x st st' ∧ Q x st st') (view s) (events.filterMap Event.exchange?)
      (view (env.replay s events)) := by
  induction events generalizing s with
  | nil => exact .nil _
  | cons event rest ih =>
    obtain ⟨hgives, hrest⟩ := hgenuine
    have hlater := ih hrest halways.tail
    cases event with
    | asked call answer => exact .cons ⟨h.step_of_gives hgives, halways [] call answer rest rfl⟩ hlater
    | _ => rwa [h.view_next s rfl] at hlater

end GuardedRun
