import GuardedRun.Orchestration.Report
import Mathlib.Data.List.Monad

/-! What a run of a session adds to its world, and how traces of parts join into traces of the whole.
The environment is arbitrary throughout: a rule here holds of every engine. -/

namespace GuardedRun

variable {σ ε α β : Type}

/-- A member of a joined list stands in the one part or in the other. -/
theorem append_split {xs ys before after : List α} {x : α} (h : xs ++ ys = before ++ x :: after) :
    (∃ rest, before = xs ++ rest ∧ ys = rest ++ x :: after) ∨
      ∃ rest, xs = before ++ x :: rest ∧ after = rest ++ ys := by
  rcases List.append_eq_append_iff.mp h with ⟨rest, hbefore, hys⟩ | ⟨tail, hxs, htail⟩
  · exact .inl ⟨rest, hbefore, hys⟩
  · rcases List.cons_eq_append_iff.mp htail with ⟨rfl, hys⟩ | ⟨rest, rfl, hafter⟩
    · rw [List.append_nil] at hxs
      exact .inl ⟨[], by rw [hxs, List.append_nil], hys⟩
    · exact .inr ⟨rest, hxs, hafter⟩

/-- A member that is nowhere else splits a list into the same parts. -/
theorem parts_of_split {pre post before after : List α} {x e : α} (hpre : e ∉ pre)
    (hpost : e ∉ post) (h : pre ++ x :: post = before ++ e :: after) :
    pre = before ∧ x = e ∧ post = after := by
  rcases append_split h with ⟨rest, hbefore, htail⟩ | ⟨rest, hpre', -⟩
  · rcases rest with _ | ⟨y, rest⟩
    · rw [List.append_nil] at hbefore
      exact ⟨hbefore.symm, List.cons.inj htail⟩
    · rw [(List.cons.inj htail).2] at hpost
      exact absurd (List.mem_append_right _ List.mem_cons_self) hpost
  · rw [hpre'] at hpre
    exact absurd (List.mem_append_right _ List.mem_cons_self) hpre

/-- A call with what came of it. -/
structure Exchange where
  call : Call
  answer : Except EngineError call.Reply

namespace Event

def exchange? : Event → Option Exchange
  | asked call answer => some ⟨call, answer⟩
  | _ => none

/-- The event says that the interrupt came in. -/
def isInterrupt : Event → Bool
  | interrupted => true
  | _ => false

def isNap : Event → Bool
  | slept _ => true
  | _ => false

/-- A history that begins with an event of its own, not with an interrupt that came in during one. -/
def Headed (events : List Event) : Prop := ∀ rest, events ≠ interrupted :: rest

end Event

namespace Environment

/-- The outside after an event that began in a state of it. -/
def next (env : Environment σ) (s : σ) : Event → σ
  | .asked call _ => (env.answer call s).2
  | .launched executable arguments _ => (env.launch executable arguments s).2
  | .slept milliseconds => env.pause milliseconds s
  | .interrupted => s

/-- The outside after a history. -/
def replay (env : Environment σ) (s : σ) (events : List Event) : σ := events.foldl env.next s

/-- The event tells what the environment really answers in a state. -/
def Gives (env : Environment σ) (s : σ) : Event → Prop
  | .asked call answer => answer = (env.answer call s).1
  | .launched executable arguments result => result = (env.launch executable arguments s).1
  | _ => True

/-- All events of a history are the environment's own. -/
def Genuine (env : Environment σ) : σ → List Event → Prop
  | _, [] => True
  | s, event :: rest => env.Gives s event ∧ env.Genuine (env.next s event) rest

@[simp] theorem replay_nil (env : Environment σ) (s : σ) : env.replay s [] = s := rfl

@[simp] theorem replay_cons (env : Environment σ) (s : σ) (event : Event) (rest : List Event) :
    env.replay s (event :: rest) = env.replay (env.next s event) rest := rfl

@[simp] theorem replay_append (env : Environment σ) (s : σ) (a b : List Event) :
    env.replay s (a ++ b) = env.replay (env.replay s a) b := by
  simp only [replay, List.foldl_append]

theorem genuine_append (env : Environment σ) (s : σ) (a b : List Event) :
    env.Genuine s (a ++ b) ↔ env.Genuine s a ∧ env.Genuine (env.replay s a) b := by
  induction a generalizing s with
  | nil => simp [Genuine]
  | cons event rest ih => simp [Genuine, ih, and_assoc]

end Environment

/-- What a run adds to its world: what happened and what was noted, each in its order. -/
structure Trace where
  events : List Event := []
  lines : List LogLine := []

namespace Trace

instance : Append Trace := ⟨fun a b => ⟨a.events ++ b.events, a.lines ++ b.lines⟩⟩

def exchanges (t : Trace) : List Exchange := t.events.filterMap Event.exchange?

/-- What was noted as an error. -/
def errors (t : Trace) : List LogLine := t.lines.filter (·.level = .error)

/-- An interrupt came in during the trace. -/
def raised (t : Trace) : Bool := t.events.any Event.isInterrupt

/-- Nothing was slept through. -/
def Awake (t : Trace) : Prop := ∀ e ∈ t.events, e.isNap = false

/-- A call was answered, and perhaps an interrupt came in meanwhile. -/
def told (call : Call) (answer : Except EngineError call.Reply) (raised : Bool) : Trace where
  events := .asked call answer :: if raised then [.interrupted] else []

def noted (line : LogLine) : Trace where
  lines := [line]

def slept (milliseconds : Nat) (raised : Bool) : Trace where
  events := .slept milliseconds :: if raised then [.interrupted] else []

/-- A program was started, and perhaps an interrupt came in meanwhile. -/
def launched (executable : Path) (arguments : List String) (result : Except String Nat)
    (raised : Bool) : Trace where
  events := .launched executable arguments result :: if raised then [.interrupted] else []

@[simp] theorem events_append (a b : Trace) : (a ++ b).events = a.events ++ b.events := rfl

@[simp] theorem lines_append (a b : Trace) : (a ++ b).lines = a.lines ++ b.lines := rfl

@[simp] theorem append_nil (t : Trace) : t ++ ({} : Trace) = t := by
  cases t
  show Trace.mk _ _ = _
  simp

@[simp] theorem nil_append (t : Trace) : ({} : Trace) ++ t = t := rfl

theorem append_assoc (a b c : Trace) : a ++ b ++ c = a ++ (b ++ c) := by
  show Trace.mk _ _ = Trace.mk _ _
  simp

@[simp] theorem exchanges_append (a b : Trace) : (a ++ b).exchanges = a.exchanges ++ b.exchanges := by
  simp [exchanges]

@[simp] theorem raised_append (a b : Trace) : (a ++ b).raised = (a.raised || b.raised) := by
  simp [raised]

@[simp] theorem errors_append (a b : Trace) : (a ++ b).errors = a.errors ++ b.errors := by
  simp [errors]

@[simp] theorem errors_nil : ({} : Trace).errors = [] := rfl

@[simp] theorem errors_told (call : Call) (answer : Except EngineError call.Reply) (r : Bool) :
    (told call answer r).errors = [] := rfl

@[simp] theorem errors_noted (line : LogLine) :
    (noted line).errors = if line.level = .error then [line] else [] := by
  simp [errors, noted, List.filter_cons]

@[simp] theorem exchanges_nil : ({} : Trace).exchanges = [] := rfl

@[simp] theorem exchanges_told (call : Call) (answer : Except EngineError call.Reply) (r : Bool) :
    (told call answer r).exchanges = [⟨call, answer⟩] := by
  cases r <;> rfl

@[simp] theorem exchanges_noted (line : LogLine) : (noted line).exchanges = [] := rfl

@[simp] theorem raised_nil : ({} : Trace).raised = false := rfl

@[simp] theorem raised_told (call : Call) (answer : Except EngineError call.Reply) (r : Bool) :
    (told call answer r).raised = r := by
  cases r <;> rfl

@[simp] theorem raised_noted (line : LogLine) : (noted line).raised = false := rfl

@[simp] theorem raised_slept (n : Nat) (r : Bool) : (slept n r).raised = r := by
  cases r <;> rfl

@[simp] theorem raised_launched (executable : Path) (arguments : List String)
    (result : Except String Nat) (r : Bool) :
    (launched executable arguments result r).raised = r := by
  cases r <;> rfl

@[simp] theorem lines_told (call : Call) (answer : Except EngineError call.Reply) (r : Bool) :
    (told call answer r).lines = [] := rfl

@[simp] theorem lines_noted (line : LogLine) : (noted line).lines = [line] := rfl

@[simp] theorem lines_slept (n : Nat) (r : Bool) : (slept n r).lines = [] := rfl

theorem Awake.append {a b : Trace} (ha : a.Awake) (hb : b.Awake) : (a ++ b).Awake := by
  intro e he
  exact (List.mem_append.mp he).elim (ha e) (hb e)

theorem awake_nil : ({} : Trace).Awake := nofun

theorem awake_noted (line : LogLine) : (noted line).Awake := nofun

theorem awake_told (call : Call) (answer : Except EngineError call.Reply) (r : Bool) :
    (told call answer r).Awake := by
  cases r <;> simp [Awake, told, Event.isNap]

end Trace

namespace Exchange

/-- The event of the exchange. -/
abbrev event (x : Exchange) : Event := .asked x.call x.answer

/-- The trace of the exchange alone. -/
abbrev told (x : Exchange) (raised : Bool) : Trace := .told x.call x.answer raised

end Exchange

/-- A world led to another one by a trace that its environment bears out. -/
structure Leads (env : Environment σ) (w : World σ) (t : Trace) (w' : World σ) : Prop where
  events : w'.events = w.events ++ t.events
  lines : w'.log.lines = w.log.lines ++ t.lines
  outside : w'.outside = env.replay w.outside t.events
  genuine : env.Genuine w.outside t.events
  interrupted : w'.interrupted = (w.interrupted || t.raised)
  /-- An interrupt comes in during some event. -/
  headed : Event.Headed t.events

namespace Leads

variable {env : Environment σ} {w w₁ w₂ : World σ} {t t₁ t₂ : Trace}

theorem refl (env : Environment σ) (w : World σ) : Leads env w {} w where
  events := by simp
  lines := by simp
  outside := rfl
  genuine := trivial
  interrupted := by simp
  headed := nofun

theorem trans (h₁ : Leads env w t₁ w₁) (h₂ : Leads env w₁ t₂ w₂) : Leads env w (t₁ ++ t₂) w₂ where
  events := by rw [h₂.events, h₁.events, Trace.events_append, List.append_assoc]
  lines := by rw [h₂.lines, h₁.lines, Trace.lines_append, List.append_assoc]
  outside := by rw [h₂.outside, h₁.outside, Trace.events_append, Environment.replay_append]
  genuine := by
    rw [Trace.events_append, Environment.genuine_append, ← h₁.outside]
    exact ⟨h₁.genuine, h₂.genuine⟩
  interrupted := by
    rw [h₂.interrupted, h₁.interrupted, Trace.raised_append, Bool.or_assoc]
  headed := by
    intro rest h
    rw [Trace.events_append] at h
    -- the joined history begins like the first one, unless that is empty
    rcases List.append_eq_cons_iff.mp h with ⟨-, h⟩ | ⟨tail, h, -⟩
    · exact h₂.headed rest h
    · exact h₁.headed tail h

private theorem after_interrupted (env : Environment σ) (w : World σ) (event : Event) (s : σ) :
    (w.after env event s).interrupted =
      (w.interrupted || (!w.interrupted && env.interrupted s)) := by
  simp only [World.after]
  cases w.interrupted <;> simp

/-- Only one trace leads from a world to another one. -/
theorem unique {t' : Trace} (h : Leads env w t w₁) (h' : Leads env w t' w₁) : t = t' := by
  have hevents : t.events = t'.events :=
    List.append_cancel_left (h.events.symm.trans h'.events)
  have hlines : t.lines = t'.lines := List.append_cancel_left (h.lines.symm.trans h'.lines)
  cases t
  cases t'
  rw [Trace.mk.injEq]
  exact ⟨hevents, hlines⟩

/-- An event that the environment bears out leads on, and perhaps the flag goes up during it. -/
theorem after (event : Event) (hgives : env.Gives w.outside event) (hown : event ≠ .interrupted) :
    ∃ raised : Bool, Leads env w { events := event :: if raised then [.interrupted] else [] }
      (w.after env event (env.next w.outside event)) := by
  -- the marker is there just where the flag goes up during the event
  refine ⟨!w.interrupted && env.interrupted (env.next w.outside event), ?_⟩
  have hplain : event.isInterrupt = false := by
    cases event with
    | interrupted => exact absurd rfl hown
    | asked | launched | slept => rfl
  have hmarker (s : σ) : env.Gives s .interrupted := trivial
  constructor
  · rfl
  · simp [World.after]
  · cases h : !w.interrupted && env.interrupted (env.next w.outside event) <;> rfl
  · cases h : !w.interrupted && env.interrupted (env.next w.outside event) <;>
      simp [Environment.Genuine, hgives, hmarker]
  · rw [after_interrupted, Trace.raised, List.any_cons, hplain]
    cases !w.interrupted && env.interrupted (env.next w.outside event) <;> rfl
  · intro rest h
    exact hown (List.cons.inj h).1

theorem told (env : Environment σ) (w : World σ) (call : Call) :
    ∃ raised, Leads env w (.told call (env.answer call w.outside).1 raised)
      (w.after env (.asked call (env.answer call w.outside).1) (env.answer call w.outside).2) :=
  after (.asked call (env.answer call w.outside).1) rfl nofun

/-- The world after a call that was answered. -/
theorem of_told {call : Call} {a : Except EngineError call.Reply} {raised : Bool}
    (h : Leads env w (.told call a raised) w₁) :
    w₁.outside = env.next w.outside (.asked call a) ∧ w₁.interrupted = (w.interrupted || raised) := by
  have houtside : w₁.outside = env.next w.outside (.asked call a) := by
    rw [h.outside]
    cases raised <;> rfl
  have hflag := h.interrupted
  rw [Trace.raised_told] at hflag
  exact ⟨houtside, hflag⟩

theorem slept (env : Environment σ) (w : World σ) (n : Nat) :
    ∃ raised, Leads env w (.slept n raised)
      (w.after env (.slept n) (env.pause n w.outside)) :=
  after (.slept n) trivial nofun

theorem launched (env : Environment σ) (w : World σ) (executable : Path) (arguments : List String) :
    ∃ raised, Leads env w
      (.launched executable arguments (env.launch executable arguments w.outside).1 raised)
      (w.after env (.launched executable arguments (env.launch executable arguments w.outside).1)
        (env.launch executable arguments w.outside).2) :=
  after (.launched executable arguments (env.launch executable arguments w.outside).1) rfl nofun

end Leads

namespace Session

variable {env : Environment σ} {w : World σ}

/-- What a run adds to its world stands in a relation to what comes of it, if anything does. -/
def Traces (env : Environment σ) (w : World σ) (s : Session σ α) (R : Trace → Option α → Prop) :
    Prop :=
  ∃ t, Leads env w t (s.run env w).2 ∧ R t (s.run env w).1

/-- The run ends with a value without a sleep, and what it adds to its world stands in a relation to
the value. -/
def Returns (env : Environment σ) (w : World σ) (s : Session σ α) (S : Trace → α → Prop) : Prop :=
  ∃ t a w', s.run env w = (some a, w') ∧ Leads env w t w' ∧ t.Awake ∧ S t a

/-- What comes before a call of a run, and what comes after it. -/
theorem Traces.reached {s : Session σ α} {R : Trace → Option α → Prop} (h : Traces env w s R)
    {call : Call} {answer : Except EngineError call.Reply} {before after : List Event}
    (hevents : (s.run env w).2.events = w.events ++ (before ++ .asked call answer :: after)) :
    ∃ t, R t (s.run env w).1 ∧ env.Genuine w.outside before ∧
      t.exchanges = before.filterMap Event.exchange? ++
        ⟨call, answer⟩ :: after.filterMap Event.exchange? := by
  obtain ⟨t, hl, ht⟩ := h
  have hsplit : t.events = before ++ .asked call answer :: after :=
    List.append_cancel_left (hl.events.symm.trans hevents)
  have hgenuine := hl.genuine
  rw [hsplit, Environment.genuine_append] at hgenuine
  refine ⟨t, ht, hgenuine.1, ?_⟩
  rw [Trace.exchanges, hsplit, List.filterMap_append]
  rfl

theorem run_bind (s : Session σ α) (f : α → Session σ β) (env : Environment σ) (w : World σ) :
    (s >>= f).run env w =
      match s.run env w with
      | (some a, w') => (f a).run env w'
      | (none, w') => (none, w') := by
  simp only [Session.run, bind, ReaderT.bind, OptionT.bind, OptionT.mk, StateT.bind]
  rcases s env w with ⟨_ | a, w'⟩ <;> rfl

theorem ext_run {s s' : Session σ α} (h : ∀ env w, s.run env w = s'.run env w) : s = s' :=
  funext fun env => funext fun w => h env w

theorem bind_bind (s : Session σ α) (f : α → Session σ β) {γ : Type} (k : β → Session σ γ) :
    ((s >>= f) >>= k) = s >>= fun a => f a >>= k := by
  refine ext_run fun env w => ?_
  rw [run_bind, run_bind, run_bind]
  rcases s.run env w with ⟨_ | a, w'⟩
  · rfl
  · exact (run_bind _ _ _ _).symm

theorem pure_then (a : α) (f : α → Session σ β) : (pure a >>= f) = f a := by
  refine ext_run fun env w => ?_
  rw [run_bind]
  rfl

namespace Returns

theorem pure {a : α} {S : Trace → α → Prop} (h : S {} a) : Returns env w (pure a) S :=
  ⟨{}, a, w, rfl, .refl env w, Trace.awake_nil, h⟩

theorem mono {s : Session σ α} {S S' : Trace → α → Prop} (hs : Returns env w s S)
    (h : ∀ t a, S t a → S' t a) : Returns env w s S' := by
  obtain ⟨t, a, w', hr, hl, hq, ha⟩ := hs
  exact ⟨t, a, w', hr, hl, hq, h t a ha⟩

/-- What two relations say of a run, they say together. -/
theorem and {s : Session σ α} {S S' : Trace → α → Prop} (hs : Returns env w s S)
    (hs' : Returns env w s S') : Returns env w s fun t a => S t a ∧ S' t a := by
  obtain ⟨t, a, w', hrun, hl, hq, ha⟩ := hs
  obtain ⟨t', a', w'', hrun', hl', -, ha'⟩ := hs'
  rw [hrun] at hrun'
  cases hrun'
  obtain rfl := hl.unique hl'
  exact ⟨t, a, w', hrun, hl, hq, ha, ha'⟩

/-- Without a sleep the trace of a run that returns is awake, and it begins with an event of its own. -/
theorem clean {s : Session σ α} {S : Trace → α → Prop} (hs : Returns env w s S) :
    Returns env w s fun t a => t.Awake ∧ Event.Headed t.events ∧ S t a := by
  obtain ⟨t, a, w', hr, hl, hq, ha⟩ := hs
  exact ⟨t, a, w', hr, hl, hq, hq, hl.headed, ha⟩

theorem bind {s : Session σ α} {f : α → Session σ β} {S : Trace → α → Prop}
    {S' : Trace → β → Prop} (hs : Returns env w s S)
    (hf : ∀ t a w₁, Leads env w t w₁ → S t a → Returns env w₁ (f a) fun t' b => S' (t ++ t') b) :
    Returns env w (s >>= f) S' := by
  obtain ⟨t, a, w₁, hr, hl, hq, ha⟩ := hs
  obtain ⟨t', b, w₂, hr', hl', hq', hb⟩ := hf t a w₁ hl ha
  refine ⟨t ++ t', b, w₂, ?_, hl.trans hl', hq.append hq', hb⟩
  rw [run_bind, hr]
  exact hr'

theorem ask {call : Call} {S : Trace → Except EngineError call.Reply → Prop}
    (h : ∀ raised, S (.told call (env.answer call w.outside).1 raised)
      (env.answer call w.outside).1) :
    Returns env w (ask call) S := by
  obtain ⟨raised, hl⟩ := Leads.told env w call
  exact ⟨_, _, _, rfl, hl, Trace.awake_told _ _ raised, h raised⟩

theorem note {line : LogLine} {S : Trace → Unit → Prop} (h : S (.noted line) ()) :
    Returns env w (note line) S := by
  refine ⟨_, (), _, rfl, ?_, Trace.awake_noted line, h⟩
  constructor <;> simp [Trace.noted, Environment.Genuine, Trace.raised, Event.Headed]

theorem isInterrupted_bind {f : Bool → Session σ β} {S : Trace → β → Prop}
    (h : Returns env w (f w.interrupted) S) : Returns env w (Session.isInterrupted >>= f) S := by
  obtain ⟨t, b, w', hr, hl, hq, hb⟩ := h
  refine ⟨t, b, w', ?_, hl, hq, hb⟩
  rw [run_bind]
  exact hr

theorem ask_bind {call : Call} {f : Except EngineError call.Reply → Session σ β}
    {S : Trace → β → Prop}
    (h : ∀ raised a w₁, Leads env w (.told call a raised) w₁ →
      Returns env w₁ (f a) fun t b => S (.told call a raised ++ t) b) :
    Returns env w (Session.ask call >>= f) S := by
  refine Returns.bind (.ask (S := fun t a => ∃ raised, t = .told call a raised)
    fun raised => ⟨raised, rfl⟩) fun t a w₁ hl ht => ?_
  obtain ⟨raised, rfl⟩ := ht
  exact h raised a w₁ hl

theorem note_bind {line : LogLine} {f : Unit → Session σ β} {S : Trace → β → Prop}
    (h : ∀ w₁, Leads env w (.noted line) w₁ →
      Returns env w₁ (f ()) fun t b => S (.noted line ++ t) b) :
    Returns env w (Session.note line >>= f) S := by
  refine Returns.bind (.note (S := fun t _ => t = .noted line) rfl) fun t a w₁ hl ht => ?_
  subst ht
  exact h w₁ hl

end Returns

namespace Traces

theorem of_returns {s : Session σ α} {R : Trace → Option α → Prop}
    (hs : Returns env w s fun t a => R t (some a)) : Traces env w s R := by
  obtain ⟨t, a, w', hr, hl, -, ha⟩ := hs
  refine ⟨t, ?_, ?_⟩
  · rw [hr]; exact hl
  · rw [hr]; exact ha

theorem mono {s : Session σ α} {R R' : Trace → Option α → Prop} (hs : Traces env w s R)
    (h : ∀ t o, R t o → R' t o) : Traces env w s R' := by
  obtain ⟨t, hl, ho⟩ := hs
  exact ⟨t, hl, h _ _ ho⟩

theorem bind {s : Session σ α} {f : α → Session σ β} {R : Trace → Option α → Prop}
    {R' : Trace → Option β → Prop} (hs : Traces env w s R) (hnone : ∀ t, R t none → R' t none)
    (hsome : ∀ t a w₁, Leads env w t w₁ → R t (some a) →
      Traces env w₁ (f a) fun t' o => R' (t ++ t') o) :
    Traces env w (s >>= f) R' := by
  obtain ⟨t, hl, ho⟩ := hs
  rcases hr : s.run env w with ⟨_ | a, w₁⟩
  · rw [hr] at hl ho
    refine ⟨t, ?_, ?_⟩ <;> rw [run_bind, hr]
    · exact hl
    · exact hnone t ho
  · rw [hr] at hl ho
    obtain ⟨t', hl', ho'⟩ := hsome t a w₁ hl ho
    refine ⟨t ++ t', ?_, ?_⟩ <;> rw [run_bind, hr]
    · exact hl.trans hl'
    · exact ho'

theorem bind_returns {s : Session σ α} {f : α → Session σ β} {S : Trace → α → Prop}
    {R : Trace → Option β → Prop} (hs : Returns env w s S)
    (hf : ∀ t a w₁, Leads env w t w₁ → S t a → Traces env w₁ (f a) fun t' o => R (t ++ t') o) :
    Traces env w (s >>= f) R := by
  obtain ⟨t, a, w₁, hr, hl, -, ha⟩ := hs
  obtain ⟨t', hl', ho'⟩ := hf t a w₁ hl ha
  refine ⟨t ++ t', ?_, ?_⟩ <;> rw [run_bind, hr]
  · exact hl.trans hl'
  · exact ho'

theorem ask_bind {call : Call} {f : Except EngineError call.Reply → Session σ β}
    {R : Trace → Option β → Prop}
    (h : ∀ raised a w₁, Leads env w (.told call a raised) w₁ →
      Traces env w₁ (f a) fun t o => R (.told call a raised ++ t) o) :
    Traces env w (Session.ask call >>= f) R := by
  refine bind_returns (Returns.ask (S := fun t a => ∃ raised, t = .told call a raised)
    fun raised => ⟨raised, rfl⟩) fun t a w₁ hl ht => ?_
  obtain ⟨raised, rfl⟩ := ht
  exact h raised a w₁ hl

theorem pause_bind {n : Nat} {f : Unit → Session σ β} {R : Trace → Option β → Prop}
    (h : ∀ raised w₁, Leads env w (.slept n raised) w₁ →
      Traces env w₁ (f ()) fun t o => R (.slept n raised ++ t) o) :
    Traces env w (Session.pause n >>= f) R := by
  obtain ⟨raised, hl⟩ := Leads.slept env w n
  obtain ⟨t, hl', ho⟩ := h raised _ hl
  refine ⟨.slept n raised ++ t, ?_, ?_⟩ <;> rw [run_bind]
  · exact hl.trans hl'
  · exact ho

theorem launch_bind {executable : Path} {arguments : List String}
    {f : Except String Nat → Session σ β} {R : Trace → Option β → Prop}
    (h : ∀ raised result w₁, Leads env w (.launched executable arguments result raised) w₁ →
      Traces env w₁ (f result) fun t o => R (.launched executable arguments result raised ++ t) o) :
    Traces env w (Session.launch executable arguments >>= f) R := by
  obtain ⟨raised, hl⟩ := Leads.launched env w executable arguments
  obtain ⟨t, hl', ho⟩ := h raised _ _ hl
  refine ⟨.launched executable arguments (env.launch executable arguments w.outside).1 raised ++ t,
    ?_, ?_⟩ <;> rw [run_bind]
  · exact hl.trans hl'
  · exact ho

theorem note_bind {line : LogLine} {f : Unit → Session σ β} {R : Trace → Option β → Prop}
    (h : ∀ w₁, Leads env w (.noted line) w₁ →
      Traces env w₁ (f ()) fun t o => R (.noted line ++ t) o) :
    Traces env w (Session.note line >>= f) R := by
  refine bind_returns (Returns.note (S := fun t _ => t = .noted line) rfl) fun t a w₁ hl ht => ?_
  subst ht
  exact h w₁ hl

theorem isInterrupted_bind {f : Bool → Session σ β} {R : Trace → Option β → Prop}
    (h : Traces env w (f w.interrupted) R) : Traces env w (Session.isInterrupted >>= f) R := by
  obtain ⟨t, hl, ho⟩ := h
  exact ⟨t, by rw [run_bind]; exact hl, by rw [run_bind]; exact ho⟩

theorem clock_bind {f : Nat → Session σ β} {R : Trace → Option β → Prop}
    (h : Traces env w (f (env.clock w.outside)) R) : Traces env w (Session.clock >>= f) R := by
  obtain ⟨t, hl, ho⟩ := h
  exact ⟨t, by rw [run_bind]; exact hl, by rw [run_bind]; exact ho⟩

end Traces

end Session

open MonadSession

namespace Attempt

theorem run_bind (x : Attempt σ ε α) (f : α → Attempt σ ε β) :
    (x >>= f).run = x.run >>= fun r =>
      match r with
      | .ok a => (f a).run
      | .error e => pure (.error e) := by
  refine Session.ext_run fun env w => ?_
  rw [Session.run_bind]
  exact Session.run_bind _ _ _ _

theorem run_lift (s : Session σ α) :
    (liftSession s : Attempt σ ε α).run = s >>= fun a => pure (.ok a) := rfl

theorem run_lift_bind (s : Session σ α) (f : α → Attempt σ ε β) :
    ((liftSession s : Attempt σ ε α) >>= f).run = s >>= fun a => (f a).run := by
  rw [run_bind, run_lift, Session.bind_bind]
  rfl

theorem run_note_bind (line : LogLine) (f : Unit → Attempt σ ε β) :
    (note line >>= f).run = Session.note line >>= fun u => (f u).run :=
  run_lift_bind (Session.note line) f

theorem run_atStage (stage : Stage) (x : Attempt σ EngineError α) :
    (atStage stage x).run = x.run >>= fun r => pure (r.mapError (.remoteFault stage)) := rfl

theorem run_ask_bind (stage : Stage) (call : Call)
    (f : call.Reply → Attempt σ OrchestrationError β) :
    (atStage stage (ask call : Attempt σ EngineError call.Reply) >>= f).run =
      Session.ask call >>= fun a =>
        match a with
        | .ok reply => (f reply).run
        | .error e => pure (.error (.remoteFault stage e)) := by
  rw [run_bind, run_atStage]
  rw [Session.bind_bind]
  change Session.ask call >>= _ = _
  congr 1
  funext a
  cases a <;> rfl

theorem returns_bind {env : Environment σ} {w : World σ} {x : Attempt σ ε α}
    {f : α → Attempt σ ε β} {S : Trace → Except ε α → Prop} {S' : Trace → Except ε β → Prop}
    (hx : Session.Returns env w x.run S) (herror : ∀ t e, S t (.error e) → S' t (.error e))
    (hok : ∀ t a w₁, Leads env w t w₁ → S t (.ok a) →
      Session.Returns env w₁ (f a).run fun t' r => S' (t ++ t') r) :
    Session.Returns env w (x >>= f).run S' := by
  rw [run_bind]
  refine hx.bind fun t r w₁ hl hr => ?_
  cases r with
  | error e => exact .pure (by simpa using herror t e hr)
  | ok a => exact hok t a w₁ hl hr

theorem returns_note_bind {env : Environment σ} {w : World σ} {line : LogLine}
    {f : Unit → Attempt σ ε β} {S : Trace → Except ε β → Prop}
    (h : ∀ w₁, Session.Returns env w₁ (f ()).run fun t r => S (.noted line ++ t) r) :
    Session.Returns env w (note line >>= f).run S := by
  rw [run_note_bind]
  apply Session.Returns.note_bind
  intro w₁ _
  exact h w₁

theorem returns_attempt_bind {env : Environment σ} {w : World σ} {call : Call}
    {f : Except EngineError call.Reply → Attempt σ ε β} {S : Trace → Except ε β → Prop}
    (h : ∀ raised a w₁, Session.Returns env w₁ (f a).run fun t r => S (.told call a raised ++ t) r) :
    Session.Returns env w (attempt call >>= f).run S := by
  rw [attempt, run_lift_bind]
  apply Session.Returns.ask_bind
  intro raised a w₁ _
  exact h raised a w₁

/-- A failing call ends the work, any other one hands its reply on. -/
theorem returns_ask_bind {env : Environment σ} {w : World σ} {call : Call}
    {f : call.Reply → Attempt σ EngineError β} {S : Trace → Except EngineError β → Prop}
    (herror : ∀ raised e, S (.told call (.error e) raised) (.error e))
    (hok : ∀ raised a w₁,
      Session.Returns env w₁ (f a).run fun t r => S (.told call (.ok a) raised ++ t) r) :
    Session.Returns env w ((ask call : Attempt σ EngineError call.Reply) >>= f).run S := by
  rw [run_bind]
  apply Session.Returns.ask_bind
  intro raised a w₁ _
  cases a with
  | error e =>
    apply Session.Returns.pure
    rw [Trace.append_nil]
    exact herror raised e
  | ok a => exact hok raised a w₁

end Attempt

namespace Guarded

/-- Guarded work as a session that starts with a guard and hands it on, however it ends. -/
abbrev under (g : Guard) (x : Guarded σ ε α) : Session σ (Except ε α × Guard) := x.run.run g

theorem under_bind (g : Guard) (x : Guarded σ ε α) (f : α → Guarded σ ε β) :
    under g (x >>= f) = under g x >>= fun (r, g') =>
      match r with
      | .ok a => under g' (f a)
      | .error e => pure (.error e, g') := by
  -- the guard is handed on inside of the session, so it outlives an error
  refine Session.ext_run fun env w => ?_
  rw [Session.run_bind]
  refine (Session.run_bind _ _ _ _).trans ?_
  congr 1
  funext r w'
  rcases r with ⟨r, g'⟩
  cases r <;> rfl

theorem under_get_bind (g : Guard) (f : Guard → Guarded σ ε β) :
    under g (get >>= f) = under g (f g) := rfl

theorem under_modify_bind (g : Guard) (h : Guard → Guard) (f : PUnit → Guarded σ ε β) :
    under g (modify h >>= f) = under (h g) (f ()) := rfl

theorem under_lift (g : Guard) (s : Session σ α) :
    under g (liftSession s : Guarded σ ε α) = s >>= fun a => pure (.ok a, g) := by
  change (s >>= fun a => pure (a, g)) >>= (fun (a, g') => pure (Except.ok a, g')) = _
  rw [Session.bind_bind]
  rfl

theorem under_atStage (g : Guard) (stage : Stage) (x : Guarded σ EngineError α) :
    under g (atStage stage x) =
      under g x >>= fun (r, g') => pure (r.mapError (OrchestrationError.remoteFault stage), g') :=
  rfl

theorem returns_bind {env : Environment σ} {w : World σ} {g : Guard} {x : Guarded σ ε α}
    {f : α → Guarded σ ε β} {S : Trace → Except ε α × Guard → Prop}
    {S' : Trace → Except ε β × Guard → Prop} (hx : Session.Returns env w (under g x) S)
    (herror : ∀ t e g₁, S t (.error e, g₁) → S' t (.error e, g₁))
    (hok : ∀ t a g₁ w₁, Leads env w t w₁ → S t (.ok a, g₁) →
      Session.Returns env w₁ (under g₁ (f a)) fun t' r => S' (t ++ t') r) :
    Session.Returns env w (under g (x >>= f)) S' := by
  rw [under_bind]
  refine hx.bind fun t r w₁ hl hr => ?_
  obtain ⟨r, g₁⟩ := r
  cases r with
  | error e => exact .pure (by simpa using herror t e g₁ hr)
  | ok a => exact hok t a g₁ w₁ hl hr

theorem traces_bind {env : Environment σ} {w : World σ} {g : Guard} {x : Guarded σ ε α}
    {f : α → Guarded σ ε β} {S : Trace → Except ε α × Guard → Prop}
    {R : Trace → Option (Except ε β × Guard) → Prop} (hx : Session.Returns env w (under g x) S)
    (herror : ∀ t e g₁, S t (.error e, g₁) → R t (some (.error e, g₁)))
    (hok : ∀ t a g₁ w₁, Leads env w t w₁ → S t (.ok a, g₁) →
      Session.Traces env w₁ (under g₁ (f a)) fun t' o => R (t ++ t') o) :
    Session.Traces env w (under g (x >>= f)) R := by
  rw [under_bind]
  refine Session.Traces.bind_returns hx fun t r w₁ hl hr => ?_
  obtain ⟨r, g₁⟩ := r
  cases r with
  | error e => exact .of_returns (.pure (by simpa using herror t e g₁ hr))
  | ok a => exact hok t a g₁ w₁ hl hr

variable {env : Environment σ} {w : World σ} {g : Guard}

theorem returns_pure {a : α} {S : Trace → Except ε α × Guard → Prop} (h : S {} (.ok a, g)) :
    Session.Returns env w (under g (pure a)) S :=
  Session.Returns.pure h

theorem returns_note {line : LogLine} {S : Trace → Except ε Unit × Guard → Prop}
    (h : S (.noted line) (.ok (), g)) : Session.Returns env w (under g (note line)) S := by
  rw [note, under_lift]
  apply Session.Returns.note_bind
  intro w₁ _
  apply Session.Returns.pure
  rw [Trace.append_nil]
  exact h

theorem returns_note_bind {line : LogLine} {f : Unit → Guarded σ ε β}
    {S : Trace → Except ε β × Guard → Prop}
    (h : ∀ w₁, Session.Returns env w₁ (under g (f ())) fun t r => S (.noted line ++ t) r) :
    Session.Returns env w (under g (note line >>= f)) S := by
  refine returns_bind (returns_note (S := fun t r => t = .noted line ∧ r = (.ok (), g)) ⟨rfl, rfl⟩)
    (fun t e g₁ hr => nomatch hr.2) fun t a g₁ w₁ _ hr => ?_
  obtain ⟨rfl, hr⟩ := hr
  cases hr
  exact h w₁

theorem returns_ask_bind {call : Call} {f : call.Reply → Guarded σ EngineError β}
    {S : Trace → Except EngineError β × Guard → Prop}
    (herror : ∀ raised e, S (.told call (.error e) raised) (.error e, g))
    (hok : ∀ raised a w₁, Leads env w (.told call (.ok a) raised) w₁ →
      Session.Returns env w₁ (under g (f a)) fun t r => S (.told call (.ok a) raised ++ t) r) :
    Session.Returns env w (under g (ask call >>= f)) S := by
  rw [under_bind]
  change Session.Returns env w ((Session.ask call >>= fun a => pure (a, g)) >>= _) S
  rw [Session.bind_bind]
  apply Session.Returns.ask_bind
  intro raised a w₁ hl
  rw [Session.pure_then]
  -- a failing call ends the work, any other one hands its reply on
  cases a with
  | error e => exact .pure (by simpa using herror raised e)
  | ok a => exact hok raised a w₁ hl

theorem returns_atStage {stage : Stage} {x : Guarded σ EngineError α}
    {S : Trace → Except EngineError α × Guard → Prop}
    {S' : Trace → Except OrchestrationError α × Guard → Prop}
    (hx : Session.Returns env w (under g x) S)
    (herror : ∀ t e g₁, S t (.error e, g₁) → S' t (.error (.remoteFault stage e), g₁))
    (hok : ∀ t a g₁, S t (.ok a, g₁) → S' t (.ok a, g₁)) :
    Session.Returns env w (under g (atStage stage x)) S' := by
  rw [under_atStage]
  refine hx.bind fun t r w₁ _ hr => .pure ?_
  obtain ⟨r, g₁⟩ := r
  cases r with
  | error e => rw [Trace.append_nil]; exact herror t e g₁ hr
  | ok a => rw [Trace.append_nil]; exact hok t a g₁ hr

end Guarded

end GuardedRun
