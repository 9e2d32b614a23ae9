import GuardedRun.Proofs.Interruption
import GuardedRun.Proofs.PollRounds
import Mathlib.Control.Monad.Basic

/-! How waiting for an execution is decided. The rounds that decide nothing come first: a query whose
answer leaves the execution going, and a sleep that nothing disturbs. One more query ends the waiting,
and it alone tells how. -/

namespace GuardedRun

variable {σ : Type} {env : Environment σ} {w : World σ}

open Session

namespace Event

/-- What the engine said of an execution when it was asked. -/
def status? : Event → Option (Except EngineError Progress)
  | asked (.progress _) a => some a
  | _ => none

/-- That an interrupt came in, if it did. -/
def marker (raised : Bool) : List Event := if raised then [interrupted] else []

theorem eq_of_mem_marker {raised : Bool} {e : Event} (h : e ∈ marker raised) : e = interrupted := by
  cases raised with
  | false => cases h
  | true => exact List.mem_singleton.mp h

theorem silent_of_mem_marker {raised : Bool} {e : Event} (h : e ∈ marker raised) :
    e.isNap = false ∧ e.status? = none := by
  rw [eq_of_mem_marker h]
  exact ⟨rfl, rfl⟩

theorem exchange_of_mem_marker {raised : Bool} {e : Event} (h : e ∈ marker raised) :
    e.exchange? = none := by
  rw [eq_of_mem_marker h]
  rfl

theorem exchanges_marker (raised : Bool) : (marker raised).filterMap exchange? = [] := by
  cases raised <;> rfl

end Event

open Event (marker)

/-- An answer heard at a time leaves the execution going: it is in progress, and not too late. -/
def Polling.LeavesGoing (polling : Polling) (started : Nat)
    (x : Except EngineError Progress × Nat) : Prop :=
  ∃ p, x.1 = .ok p ∧ p.inProgress = true ∧ polling.deadlinePassed (x.2 - started) = false

theorem Polling.deadlinePassed_eq_true {polling : Polling} {elapsed : Nat} :
    polling.deadlinePassed elapsed = true ↔
      ∃ deadline, polling.deadline = some deadline ∧ deadline ≤ elapsed := by
  unfold deadlinePassed
  cases polling.deadline <;> simp

namespace Environment

/-- The answers to the queries of a history, each with the time at which it was heard. -/
def statuses (env : Environment σ) : σ → List Event → List (Except EngineError Progress × Nat)
  | _, [] => []
  | s, event :: rest =>
    event.status?.toList.map (·, env.clock (env.next s event)) ++ env.statuses (env.next s event) rest

theorem statuses_append (env : Environment σ) (s : σ) (a b : List Event) :
    env.statuses s (a ++ b) = env.statuses s a ++ env.statuses (env.replay s a) b := by
  induction a generalizing s with
  | nil => rfl
  | cons event rest ih => simp [statuses, ih]

theorem statuses_of_silent {s : σ} {events : List Event} (h : ∀ e ∈ events, e.status? = none) :
    env.statuses s events = [] := by
  induction events generalizing s with
  | nil => rfl
  | cons event rest ih =>
    obtain ⟨hevent, hrest⟩ := List.forall_mem_cons.mp h
    rw [statuses, hevent, ih hrest]
    rfl

/-- The waiting looks at the flag after an event that began in a state: after every slice of a sleep,
and after an answer that leaves the execution going, since a sleep begins then. -/
def LooksAfter (env : Environment σ) (polling : Polling) (started : Nat) (s : σ) (e : Event) : Prop :=
  e.isNap = true ∨
    ∃ a, e.status? = some a ∧ polling.LeavesGoing started (a, env.clock (env.next s e))

/-- A look at the flag finds it up: the first one, before any query, or the one after an event. -/
def Sighted (env : Environment σ) (polling : Polling) (started : Nat) (s : σ) (flag : Bool)
    (events : List Event) : Prop :=
  flag = true ∨ ∃ before e after, events = before ++ e :: after ∧
    env.LooksAfter polling started (env.replay s before) e ∧
    (before.any Event.isInterrupt = true ∨ ∃ rest, after = .interrupted :: rest)

end Environment

/-- How a waiting that began in a state of the outside, with the flag up or down, is decided. -/
structure Decided (env : Environment σ) (execution : Execution) (polling : Polling) (s : σ)
    (flag : Bool) (events : List Event) (r : Except OrchestrationError Unit) : Prop where
  ended : r = .ok () ↔ (∃ (earlier : List Progress) (last : Progress),
    (env.statuses s events).map (·.1) = earlier.map .ok ++ [.ok last] ∧
    (∀ p ∈ earlier, p.inProgress = true) ∧ last.inProgress = false) ∧
      ¬ env.Sighted polling (env.clock s) s flag events
  failed : ∀ e, r = .error (.remoteFault .poll e) ↔ .error e ∈ (env.statuses s events).map (·.1)
  late : ∀ seconds, r = .error (.pollDeadlineExceeded seconds) ↔
    ∃ earlier p time deadline, env.statuses s events = earlier ++ [(.ok p, time)] ∧
      p.inProgress = true ∧ polling.deadline = some deadline ∧ deadline ≤ time - env.clock s ∧
      seconds = deadline / 1000
  interrupted : r = .error .interrupted ↔ env.Sighted polling (env.clock s) s flag events
  /-- The waiting ends in no other way. -/
  exhausted : r = .ok () ∨ (∃ e, r = .error (.remoteFault .poll e)) ∨
    (∃ seconds, r = .error (.pollDeadlineExceeded seconds)) ∨ r = .error .interrupted
  /-- No query comes after one that decides. -/
  undecided : ∀ x ∈ (env.statuses s events).dropLast, polling.LeavesGoing (env.clock s) x
  /-- There are no calls but the queries, unless the waiting was given up. -/
  kept : r = .ok () ∨ (∃ e, r = .error (.remoteFault .poll e)) → events.filterMap Event.exchange? =
    (env.statuses s events).map fun x => ⟨.progress execution, x.1⟩
  cancelled : (∃ seconds, r = .error (.pollDeadlineExceeded seconds)) ∨ r = .error .interrupted →
    ∃ a, events.filterMap Event.exchange? =
      ((env.statuses s events).map fun x => ⟨.progress execution, x.1⟩) ++ [⟨.cancel execution, a⟩]

/-- Rounds of a waiting that decided nothing: a query and a sleep each, with the flag down. -/
inductive Waited (env : Environment σ) (execution : Execution) (polling : Polling) (started : Nat) :
    σ → List Event → Prop
  | none (s) : Waited env execution polling started s []
  | round (s p events) (naps : List Nat)
    (going : polling.LeavesGoing started
      (.ok p, env.clock (env.next s (.asked (.progress execution) (.ok p)))))
    (rest : Waited env execution polling started
      (env.replay s (.asked (.progress execution) (.ok p) :: naps.map .slept)) events) :
    Waited env execution polling started s
      (.asked (.progress execution) (.ok p) :: naps.map .slept ++ events)

/-- The round that decides, from its query on. -/
inductive Deciding (env : Environment σ) (execution : Execution) (polling : Polling) (started : Nat)
    (s : σ) : List Event → Except OrchestrationError Unit → Prop
  | failed (e raised) : Deciding env execution polling started s
    (.asked (.progress execution) (.error e) :: marker raised) (.error (.remoteFault .poll e))
  | finished (p raised) (done : p.inProgress = false) : Deciding env execution polling started s
    (.asked (.progress execution) (.ok p) :: marker raised) (.ok ())
  | late (p raised a raised') (running : p.inProgress = true)
    (passed : polling.deadlinePassed
      (env.clock (env.next s (.asked (.progress execution) (.ok p))) - started) = true) :
    Deciding env execution polling started s
      (.asked (.progress execution) (.ok p) :: (marker raised ++
        .asked (.cancel execution) a :: marker raised'))
      (.error (.pollDeadlineExceeded (polling.deadline.getD 0 / 1000)))
  | stopped (p a raised') (naps : List Nat)
    (going : polling.LeavesGoing started
      (.ok p, env.clock (env.next s (.asked (.progress execution) (.ok p))))) :
    Deciding env execution polling started s
      (.asked (.progress execution) (.ok p) :: (naps.map .slept ++
        .interrupted :: .asked (.cancel execution) a :: marker raised'))
      (.error .interrupted)

variable {execution : Execution} {polling : Polling} {started rounds : Nat} {s : σ}

theorem silent_of_mem_naps {naps : List Nat} {e : Event} (h : e ∈ naps.map Event.slept) :
    e.isInterrupt = false ∧ e.status? = none ∧ e.exchange? = none := by
  obtain ⟨n, -, rfl⟩ := List.mem_map.mp h
  exact ⟨rfl, rfl, rfl⟩

theorem exchanges_naps (naps : List Nat) : (naps.map Event.slept).filterMap Event.exchange? = [] :=
  List.filterMap_eq_nil_iff.mpr fun _ he => (silent_of_mem_naps he).2.2

namespace Waited

variable {events : List Event}

theorem quiet (h : Waited env execution polling started s events) :
    ∀ e ∈ events, e.isInterrupt = false := by
  induction h with
  | none s => exact nofun
  | round s p events naps going rest ih =>
    rw [List.cons_append]
    refine List.forall_mem_cons.mpr ⟨rfl, fun e he => ?_⟩
    exact (List.mem_append.mp he).elim (fun h => (silent_of_mem_naps h).1) (ih e)

/-- A round of the waiting asks once. -/
theorem statuses_round (s : σ) (p : Progress) (naps : List Nat) (events : List Event) :
    env.statuses s (.asked (.progress execution) (.ok p) :: naps.map .slept ++ events) =
      (.ok p, env.clock (env.next s (.asked (.progress execution) (.ok p)))) ::
        env.statuses (env.replay s (.asked (.progress execution) (.ok p) :: naps.map .slept))
          events := by
  rw [Environment.statuses_append, Environment.statuses,
    Environment.statuses_of_silent fun e he => (silent_of_mem_naps he).2.1]
  rfl

theorem going (h : Waited env execution polling started s events) :
    ∀ x ∈ env.statuses s events, polling.LeavesGoing started x := by
  induction h with
  | none s => exact nofun
  | round s p events naps going rest ih =>
    rw [statuses_round]
    exact List.forall_mem_cons.mpr ⟨going, ih⟩

theorem exchanges (h : Waited env execution polling started s events) :
    events.filterMap Event.exchange? =
      (env.statuses s events).map fun x => ⟨.progress execution, x.1⟩ := by
  induction h with
  | none s => rfl
  | round s p events naps going rest ih =>
    rw [statuses_round, List.filterMap_append, ih]
    have hround : (Event.asked (.progress execution) (.ok p) :: naps.map .slept).filterMap
        Event.exchange? = [⟨.progress execution, .ok p⟩] := congrArg (_ :: ·) (exchanges_naps naps)
    rw [hround]
    rfl

end Waited

/-- A waiting that began with the flag down and has ended is some rounds that decided nothing, and the
one that decided. -/
theorem Watch.inRounds {t : Trace} {r : Except OrchestrationError Unit}
    (h : Watch env execution polling started rounds s false t (some r)) :
    ∃ waited ending, t.events = waited ++ ending ∧
      Waited env execution polling started s waited ∧
      Deciding env execution polling started (env.replay s waited) ending r ∧
      (env.statuses s waited).length < rounds := by
  generalize hflag : false = flag at h
  generalize ho : some r = o at h
  induction h with
  | unfollowed => cases ho
  | interrupted => cases hflag
  | failed rounds s e raised =>
    cases ho
    exact ⟨[], _, rfl, .none s, .failed e raised, Nat.zero_lt_succ rounds⟩
  | finished rounds s p raised line done =>
    cases ho
    exact ⟨[], _, List.append_nil _, .none s, .finished p raised done, Nat.zero_lt_succ rounds⟩
  | late rounds s p raised a raised' line running passed =>
    cases ho
    refine ⟨[], _, rfl, .none s, ?_, Nat.zero_lt_succ rounds⟩
    have hlate : Deciding env execution polling started s
        (.asked (.progress execution) (.ok p) :: (marker raised ++
          .asked (.cancel execution) a :: marker raised')) _ := .late p raised a raised' running passed
    simpa [Trace.told, Trace.noted, marker] using hlate
  | stopped rounds s p raised nap a raised' line running early woken =>
    cases ho
    refine ⟨[], _, rfl, .none s, ?_, Nat.zero_lt_succ rounds⟩
    -- a sleep that is refused stands right after the answer during which the interrupt came in
    have hstopped (naps : List Nat) : Deciding env execution polling started s
        (.asked (.progress execution) (.ok p) :: (naps.map .slept ++
          .interrupted :: .asked (.cancel execution) a :: marker raised')) _ :=
      .stopped p a raised' naps ⟨p, rfl, running, early⟩
    cases woken with
    | refused => simpa [Trace.told, Trace.noted, marker] using hstopped []
    | broken naps last =>
      simpa [Trace.told, Trace.noted, marker] using hstopped (naps ++ [last])
  | again rounds s p nap t o running early slept rest ih =>
    obtain ⟨waited, ending, ht, hwaited, hdeciding, hcount⟩ := ih hflag ho
    cases slept with
    | full naps =>
      refine ⟨_, ending, ?_, .round s p waited naps ⟨p, rfl, running, early⟩ hwaited, ?_, ?_⟩
      · rw [Trace.events_append, Trace.events_append, ht, List.append_assoc]
        rfl
      · rwa [Environment.replay_append]
      · rw [Waited.statuses_round]
        exact Nat.succ_lt_succ hcount

namespace Environment

/-- Nobody saw an interrupt that came in, if at all, after the last look at the flag. -/
theorem not_sighted {waited ending : List Event}
    (hwaited : Waited env execution polling started s waited) (hending : Event.Headed ending)
    (hlook : ∀ before e after, ending = before ++ e :: after →
      ¬ env.LooksAfter polling started (env.replay (env.replay s waited) before) e) :
    ¬ env.Sighted polling started s false (waited ++ ending) := by
  intro h
  obtain ⟨before, e, after, hx, he, hseen⟩ := h.resolve_left Bool.false_ne_true
  rcases append_split hx with ⟨before', rfl, hx'⟩ | ⟨rest, rfl, rfl⟩
  · rw [replay_append] at he
    exact hlook before' e after hx' he
  · -- an event of the rounds that decided nothing: no interrupt came in up to the next one
    have hquiet := hwaited.quiet
    rcases hseen with hbefore | ⟨tail, htail⟩
    · obtain ⟨x, hmem, hx⟩ := List.any_eq_true.mp hbefore
      rw [hquiet x (List.mem_append_left _ hmem)] at hx
      cases hx
    · rcases rest with _ | ⟨x, rest⟩
      · exact hending tail htail
      · have hx := hquiet x (by simp)
        rw [(List.cons.inj htail).1] at hx
        cases hx

theorem not_looksAfter_of_silent {e : Event} (h : e.isNap = false ∧ e.status? = none) :
    ¬ env.LooksAfter polling started s e := by
  rintro (hnap | ⟨a, ha, -⟩)
  · rw [h.1] at hnap
    cases hnap
  · rw [h.2] at ha
    cases ha

/-- After a query that decides and events that are no part of the waiting, nobody looks. -/
theorem not_looksAfter_of_decided {a : Except EngineError Progress} {tail before after : List Event}
    {e : Event}
    (hdecided : ¬ polling.LeavesGoing started (a, env.clock (env.next s (.asked (.progress execution) a))))
    (htail : ∀ x ∈ tail, x.isNap = false ∧ x.status? = none)
    (hx : .asked (.progress execution) a :: tail = before ++ e :: after) :
    ¬ env.LooksAfter polling started (env.replay s before) e := by
  rcases before with _ | ⟨x, before⟩
  · obtain ⟨rfl, -⟩ := List.cons.inj hx
    rintro (hnap | ⟨a', ha, hgoing⟩)
    · cases hnap
    · cases ha
      exact hdecided hgoing
  · have hmem : e ∈ tail := by
      rw [(List.cons.inj hx).2]
      simp
    exact not_looksAfter_of_silent (htail e hmem)

end Environment

/-- The answers of a waiting, whether an interrupt was seen, and what they make of the waiting. -/
inductive PollVerdict (polling : Polling) (started : Nat) (sighted : Prop) :
    List (Except EngineError Progress × Nat) → Except OrchestrationError Unit → Prop
  | failed (earlier e time) (going : ∀ x ∈ earlier, polling.LeavesGoing started x)
    (unseen : ¬ sighted) : PollVerdict polling started sighted (earlier ++ [(.error e, time)])
      (.error (.remoteFault .poll e))
  | finished (earlier p time) (going : ∀ x ∈ earlier, polling.LeavesGoing started x)
    (unseen : ¬ sighted) (done : p.inProgress = false) :
    PollVerdict polling started sighted (earlier ++ [(.ok p, time)]) (.ok ())
  | late (earlier p time deadline) (going : ∀ x ∈ earlier, polling.LeavesGoing started x)
    (unseen : ¬ sighted) (running : p.inProgress = true) (limited : polling.deadline = some deadline)
    (passed : deadline ≤ time - started) : PollVerdict polling started sighted
      (earlier ++ [(.ok p, time)]) (.error (.pollDeadlineExceeded (deadline / 1000)))
  | interrupted (statuses) (going : ∀ x ∈ statuses, polling.LeavesGoing started x) (seen : sighted) :
    PollVerdict polling started sighted statuses (.error .interrupted)

namespace Polling

variable {xs : List (Except EngineError Progress × Nat)}

theorem not_failed_of_going (h : ∀ x ∈ xs, polling.LeavesGoing started x) (e : EngineError) :
    .error e ∉ xs.map (·.1) := by
  intro hmem
  obtain ⟨x, hx, he⟩ := List.mem_map.mp hmem
  obtain ⟨p, hp, -⟩ := h x hx
  rw [hp] at he
  cases he

theorem progresses_of_going (h : ∀ x ∈ xs, polling.LeavesGoing started x) :
    ∃ earlier : List Progress, xs.map (·.1) = earlier.map .ok ∧ ∀ p ∈ earlier, p.inProgress = true := by
  induction xs with
  | nil => exact ⟨[], rfl, nofun⟩
  | cons x xs ih =>
    obtain ⟨⟨p, hp, hrunning, -⟩, hrest⟩ := List.forall_mem_cons.mp h
    obtain ⟨earlier, hearlier, hall⟩ := ih hrest
    refine ⟨p :: earlier, ?_, List.forall_mem_cons.mpr ⟨hrunning, hall⟩⟩
    rw [List.map_cons, List.map_cons, hp, hearlier]

theorem not_going_of_late {p : Progress} {time deadline : Nat} (hdeadline : polling.deadline = some deadline)
    (hpassed : deadline ≤ time - started) : ¬ polling.LeavesGoing started (.ok p, time) := by
  rintro ⟨q, -, -, hearly⟩
  rw [deadlinePassed_eq_true.mpr ⟨deadline, hdeadline, hpassed⟩] at hearly
  cases hearly

end Polling

namespace PollVerdict

variable {sighted : Prop} {statuses : List (Except EngineError Progress × Nat)}
  {r : Except OrchestrationError Unit}

theorem ended_iff (h : PollVerdict polling started sighted statuses r) :
    r = .ok () ↔ (∃ (earlier : List Progress) (last : Progress),
      statuses.map (·.1) = earlier.map .ok ++ [.ok last] ∧
        (∀ p ∈ earlier, p.inProgress = true) ∧ last.inProgress = false) ∧ ¬ sighted := by
  constructor
  · intro hr
    cases h with
    | failed | late | interrupted => cases hr
    | finished earlier p time going unseen done =>
      obtain ⟨ps, hps, hrunning⟩ := Polling.progresses_of_going going
      refine ⟨⟨ps, p, ?_, hrunning, done⟩, unseen⟩
      rw [List.map_append, hps]
      rfl
  · rintro ⟨⟨ps, last, hx, -, hdone⟩, hunseen⟩
    cases h with
    | finished => rfl
    | interrupted statuses going seen => exact absurd seen hunseen
    | failed earlier e time =>
      rw [List.map_append] at hx
      cases (List.append_inj' hx rfl).2
    | late earlier p time deadline going unseen running =>
      -- the last answer cannot be both in progress and not
      rw [List.map_append] at hx
      cases (List.append_inj' hx rfl).2
      rw [running] at hdone
      cases hdone

theorem failed_iff (h : PollVerdict polling started sighted statuses r) (e : EngineError) :
    r = .error (.remoteFault .poll e) ↔ .error e ∈ statuses.map (·.1) := by
  constructor
  · intro hr
    cases h with
    | finished | late | interrupted => cases hr
    | failed earlier e' time =>
      cases hr
      simp
  · intro hmem
    cases h with
    | interrupted statuses going => exact absurd hmem (Polling.not_failed_of_going going e)
    | failed earlier e' time going | finished earlier p time going
    | late earlier p time deadline going =>
      rw [List.map_append, List.mem_append] at hmem
      have hlast := hmem.resolve_left (Polling.not_failed_of_going going e)
      cases List.mem_singleton.mp hlast <;> rfl

theorem late_iff (h : PollVerdict polling started sighted statuses r) (seconds : Nat) :
    r = .error (.pollDeadlineExceeded seconds) ↔ ∃ earlier p time deadline,
      statuses = earlier ++ [(.ok p, time)] ∧ p.inProgress = true ∧
        polling.deadline = some deadline ∧ deadline ≤ time - started ∧ seconds = deadline / 1000 := by
  constructor
  · intro hr
    cases h with
    | failed | finished | interrupted => cases hr
    | late earlier p time deadline going unseen running limited passed =>
      cases hr
      exact ⟨earlier, p, time, deadline, rfl, running, limited, passed, rfl⟩
  · rintro ⟨earlier', p', time', deadline', hx, hrunning, hlimited, hpassed, rfl⟩
    cases h with
    | failed => cases (List.append_inj' hx rfl).2
    | finished earlier p time going unseen done =>
      cases (List.append_inj' hx rfl).2
      rw [hrunning] at done
      cases done
    | late earlier p time deadline going unseen running limited =>
      rw [limited] at hlimited
      cases hlimited
      rfl
    | interrupted statuses going =>
      subst hx
      have hlast := going (.ok p', time') (by simp)
      exact absurd hlast (Polling.not_going_of_late hlimited hpassed)

theorem interrupted_iff (h : PollVerdict polling started sighted statuses r) :
    r = .error .interrupted ↔ sighted := by
  cases h with
  | interrupted statuses going seen => exact ⟨fun _ => seen, fun _ => rfl⟩
  | failed | finished | late => exact ⟨nofun, fun seen => absurd seen (by assumption)⟩

theorem exhausted (h : PollVerdict polling started sighted statuses r) :
    r = .ok () ∨ (∃ e, r = .error (.remoteFault .poll e)) ∨
      (∃ seconds, r = .error (.pollDeadlineExceeded seconds)) ∨ r = .error .interrupted := by
  cases h with
  | finished => exact .inl rfl
  | failed earlier e => exact .inr (.inl ⟨e, rfl⟩)
  | late => exact .inr (.inr (.inl ⟨_, rfl⟩))
  | interrupted => exact .inr (.inr (.inr rfl))

theorem undecided (h : PollVerdict polling started sighted statuses r) :
    ∀ x ∈ statuses.dropLast, polling.LeavesGoing started x := by
  intro x hx
  cases h with
  | interrupted statuses going => exact going x (List.dropLast_subset _ hx)
  | failed earlier e time going | finished earlier p time going
  | late earlier p time deadline going =>
    rw [List.dropLast_concat] at hx
    exact going x hx

end PollVerdict

namespace Deciding

variable {waited ending : List Event} {r : Except OrchestrationError Unit}

/-- What comes after the last query, where the waiting is given up. -/
theorem silent_of_mem_cancelled {raised : Bool} {a : Except EngineError Unit} {e : Event}
    (h : e ∈ Event.asked (.cancel execution) a :: marker raised) :
    e.isNap = false ∧ e.status? = none := by
  rcases List.mem_cons.mp h with rfl | h
  · exact ⟨rfl, rfl⟩
  · exact Event.silent_of_mem_marker h

theorem statuses_query {a : Except EngineError Progress} {tail : List Event}
    (htail : ∀ x ∈ tail, x.status? = none) :
    env.statuses s (.asked (.progress execution) a :: tail) =
      [(a, env.clock (env.next s (.asked (.progress execution) a)))] := by
  rw [Environment.statuses, Environment.statuses_of_silent htail]
  rfl

/-- An interrupt that comes in during the answer, or during a slice of the sleep that follows, is seen. -/
theorem sighted_of_stopped {p : Progress} {naps : List Nat} {after : List Event}
    (going : polling.LeavesGoing started
      (.ok p, env.clock (env.next (env.replay s waited) (.asked (.progress execution) (.ok p))))) :
    env.Sighted polling started s false (waited ++
      .asked (.progress execution) (.ok p) :: (naps.map .slept ++ .interrupted :: after)) := by
  right
  rcases List.eq_nil_or_concat naps with rfl | ⟨init, last, rfl⟩
  · exact ⟨waited, _, .interrupted :: after, rfl, .inr ⟨_, rfl, going⟩, .inr ⟨after, rfl⟩⟩
  · refine ⟨waited ++ .asked (.progress execution) (.ok p) :: init.map .slept, .slept last,
      .interrupted :: after, ?_, .inl rfl, .inr ⟨after, rfl⟩⟩
    simp

/-- After the query of the round that decides, the engine is asked no more. -/
theorem silent {query : Event} {tail : List Event}
    (h : Deciding env execution polling started s (query :: tail) r) : ∀ x ∈ tail, x.status? = none := by
  intro x hx
  cases h with
  | failed | finished => exact (Event.silent_of_mem_marker hx).2
  | late =>
    rcases List.mem_append.mp hx with hx | hx
    · exact (Event.silent_of_mem_marker hx).2
    · exact (silent_of_mem_cancelled hx).2
  | stopped =>
    rcases List.mem_append.mp hx with hx | hx
    · exact (silent_of_mem_naps hx).2.1
    · rcases List.mem_cons.mp hx with rfl | hx
      · rfl
      · exact (silent_of_mem_cancelled hx).2

theorem asked (h : Deciding env execution polling started s ending r) :
    (env.statuses s ending).length = 1 := by
  rcases ending with _ | ⟨query, tail⟩
  · cases h
  · have hsilent := h.silent
    cases h <;> rw [statuses_query hsilent] <;> rfl

theorem verdict (hwaited : Waited env execution polling started s waited)
    (h : Deciding env execution polling started (env.replay s waited) ending r) :
    PollVerdict polling started (env.Sighted polling started s false (waited ++ ending))
      (env.statuses s (waited ++ ending)) r := by
  have hgoing := hwaited.going
  have hunseen {a : Except EngineError Progress} {tail : List Event}
      (hdecided : ¬ polling.LeavesGoing started
        (a, env.clock (env.next (env.replay s waited) (.asked (.progress execution) a))))
      (htail : ∀ x ∈ tail, x.isNap = false ∧ x.status? = none) :
      ¬ env.Sighted polling started s false (waited ++ .asked (.progress execution) a :: tail) :=
    Environment.not_sighted hwaited nofun fun before e after hx =>
      Environment.not_looksAfter_of_decided hdecided htail hx
  cases h with
  | failed e raised =>
    have htail (x) (hx : x ∈ marker raised) := Event.silent_of_mem_marker hx
    rw [Environment.statuses_append, statuses_query fun x hx => (htail x hx).2]
    exact .failed _ e _ hgoing (hunseen (fun ⟨_, hp, _⟩ => nomatch hp) htail)
  | finished p raised done =>
    have htail (x) (hx : x ∈ marker raised) := Event.silent_of_mem_marker hx
    rw [Environment.statuses_append, statuses_query fun x hx => (htail x hx).2]
    refine .finished _ p _ hgoing (hunseen ?_ htail) done
    rintro ⟨q, hq, hrunning, -⟩
    cases hq
    rw [done] at hrunning
    cases hrunning
  | late p raised a raised' running passed =>
    have htail (x) (hx : x ∈ marker raised ++ .asked (.cancel execution) a :: marker raised') :=
      (List.mem_append.mp hx).elim Event.silent_of_mem_marker silent_of_mem_cancelled
    obtain ⟨deadline, hdeadline, hpassed⟩ := Polling.deadlinePassed_eq_true.mp passed
    rw [Environment.statuses_append, statuses_query fun x hx => (htail x hx).2, hdeadline]
    exact .late _ p _ deadline hgoing (hunseen (Polling.not_going_of_late hdeadline hpassed) htail)
      running hdeadline hpassed
  | stopped p a raised' naps going =>
    have hstopped : Deciding env execution polling started (env.replay s waited) _ _ :=
      .stopped p a raised' naps going
    refine .interrupted _ ?_ (sighted_of_stopped going)
    rw [Environment.statuses_append, statuses_query hstopped.silent]
    intro x hx
    rcases List.mem_append.mp hx with hx | hx
    · exact hgoing x hx
    · rwa [List.mem_singleton.mp hx]

theorem exchanges_kept (s : σ) (a : Except EngineError Progress) (raised : Bool) :
    (Event.asked (.progress execution) a :: marker raised).filterMap Event.exchange? =
      (env.statuses s (.asked (.progress execution) a :: marker raised)).map
        fun x => ⟨.progress execution, x.1⟩ := by
  rw [statuses_query fun x hx => (Event.silent_of_mem_marker hx).2]
  exact congrArg (_ :: ·) (Event.exchanges_marker raised)

theorem exchanges_cancelled (s : σ) (p : Progress) {between : List Event}
    (a : Except EngineError Unit) (raised : Bool)
    (hbetween : ∀ x ∈ between, x.status? = none ∧ x.exchange? = none) :
    (Event.asked (.progress execution) (.ok p) :: (between ++
        .asked (.cancel execution) a :: marker raised)).filterMap Event.exchange? =
      ((env.statuses s (.asked (.progress execution) (.ok p) :: (between ++
        .asked (.cancel execution) a :: marker raised))).map
          fun x => ⟨.progress execution, x.1⟩) ++ [⟨.cancel execution, a⟩] := by
  have hnone : between.filterMap Event.exchange? = [] :=
    List.filterMap_eq_nil_iff.mpr fun x hx => (hbetween x hx).2
  have hend : (Event.asked (.cancel execution) a :: marker raised).filterMap Event.exchange? =
      [⟨.cancel execution, a⟩] := congrArg (_ :: ·) (Event.exchanges_marker raised)
  have htail : ∀ x ∈ between ++ .asked (.cancel execution) a :: marker raised, x.status? = none := by
    intro x hx
    rcases List.mem_append.mp hx with hx | hx
    · exact (hbetween x hx).1
    · exact (silent_of_mem_cancelled hx).2
  rw [statuses_query htail]
  have hcalls : (between ++ .asked (.cancel execution) a :: marker raised).filterMap
      Event.exchange? = [⟨.cancel execution, a⟩] := by
    rw [List.filterMap_append, hnone, hend, List.nil_append]
  exact congrArg (_ :: ·) hcalls

/-- The round that decides makes one query, and cancels where it gives up. -/
theorem exchanges (h : Deciding env execution polling started s ending r) :
    (r = .ok () ∨ (∃ e, r = .error (.remoteFault .poll e)) →
      ending.filterMap Event.exchange? =
        (env.statuses s ending).map fun x => ⟨.progress execution, x.1⟩) ∧
    ((∃ seconds, r = .error (.pollDeadlineExceeded seconds)) ∨ r = .error .interrupted →
      ∃ a, ending.filterMap Event.exchange? =
        ((env.statuses s ending).map fun x => ⟨.progress execution, x.1⟩) ++
          [⟨.cancel execution, a⟩]) := by
  cases h with
  | failed e raised =>
    refine ⟨fun _ => exchanges_kept s _ raised, fun hr => ?_⟩
    rcases hr with ⟨seconds, hr⟩ | hr <;> cases hr
  | finished p raised done =>
    refine ⟨fun _ => exchanges_kept s _ raised, fun hr => ?_⟩
    rcases hr with ⟨seconds, hr⟩ | hr <;> cases hr
  | late p raised a raised' running passed =>
    refine ⟨fun hr => ?_, fun _ => ⟨a, exchanges_cancelled s p a raised' fun x hx => ?_⟩⟩
    · rcases hr with hr | ⟨e, hr⟩ <;> cases hr
    · exact ⟨(Event.silent_of_mem_marker hx).2, Event.exchange_of_mem_marker hx⟩
  | stopped p a raised' naps going =>
    refine ⟨fun hr => ?_, fun _ => ⟨a, ?_⟩⟩
    · rcases hr with hr | ⟨e, hr⟩ <;> cases hr
    · have hbetween : ∀ x ∈ naps.map Event.slept ++ [.interrupted],
          x.status? = none ∧ x.exchange? = none := by
        intro x hx
        rcases List.mem_append.mp hx with hx | hx
        · exact (silent_of_mem_naps hx).2
        · rw [List.mem_singleton.mp hx]
          exact ⟨rfl, rfl⟩
      rw [List.append_cons]
      exact exchanges_cancelled s p a raised' hbetween

end Deciding

theorem statuses_cancelled (a : Except EngineError Unit) (raised : Bool) (line : LogLine) :
    env.statuses s (.told (.cancel execution) a raised ++ .noted line : Trace).events = [] := by
  have hevents : (.told (.cancel execution) a raised ++ .noted line : Trace).events =
      .asked (.cancel execution) a :: marker raised := List.append_nil _
  rw [hevents]
  exact Environment.statuses_of_silent fun x hx => (Deciding.silent_of_mem_cancelled hx).2

theorem Watch.decided {t : Trace} {flag : Bool} {r : Except OrchestrationError Unit}
    (h : Watch env execution polling (env.clock s) rounds s flag t (some r)) :
    Decided env execution polling s flag t.events r := by
  have hverdict : PollVerdict polling (env.clock s)
      (env.Sighted polling (env.clock s) s flag t.events) (env.statuses s t.events) r ∧
    (r = .ok () ∨ (∃ e, r = .error (.remoteFault .poll e)) → t.exchanges =
      (env.statuses s t.events).map fun x => ⟨.progress execution, x.1⟩) ∧
    ((∃ seconds, r = .error (.pollDeadlineExceeded seconds)) ∨ r = .error .interrupted →
      ∃ a, t.exchanges = ((env.statuses s t.events).map fun x => ⟨.progress execution, x.1⟩) ++
        [⟨.cancel execution, a⟩]) := by
    cases flag with
    | true =>
      cases h with
      | interrupted rounds s a raised line =>
        have hnone : env.statuses s (.told (.cancel execution) a raised ++ .noted line : Trace).events
            = [] := statuses_cancelled a raised line
        rw [hnone]
        refine ⟨.interrupted [] nofun (.inl rfl), fun hr => ?_, fun _ => ⟨a, by simp⟩⟩
        rcases hr with hr | ⟨e, hr⟩ <;> cases hr
    | false =>
      obtain ⟨waited, ending, ht, hwaited, hdeciding, -⟩ := h.inRounds
      rw [Trace.exchanges, ht, List.filterMap_append, hwaited.exchanges, Environment.statuses_append,
        List.map_append]
      obtain ⟨hkept, hcancelled⟩ := hdeciding.exchanges
      refine ⟨?_, fun hr => ?_, fun hr => ?_⟩
      · rw [← Environment.statuses_append]
        exact hdeciding.verdict hwaited
      · rw [hkept hr]
      · obtain ⟨a, ha⟩ := hcancelled hr
        refine ⟨a, ?_⟩
        rw [ha, List.append_assoc]
  obtain ⟨hverdict, hkept, hcancelled⟩ := hverdict
  exact {
    ended := hverdict.ended_iff
    failed := hverdict.failed_iff
    late := hverdict.late_iff
    interrupted := hverdict.interrupted_iff
    exhausted := hverdict.exhausted
    undecided := hverdict.undecided
    kept := hkept
    cancelled := hcancelled }

/-- A waiting that has ended makes as many queries as there were rounds: none where the first look
finds the flag up, at least one otherwise, and never more than the rounds that were followed. -/
theorem Watch.count {t : Trace} {flag : Bool} {r : Except OrchestrationError Unit}
    (h : Watch env execution polling started rounds s flag t (some r)) :
    (flag = false → 0 < (env.statuses s t.events).length) ∧
      max 1 (env.statuses s t.events).length ≤ rounds := by
  cases flag with
  | true =>
    cases h with
    | interrupted rounds s a raised line =>
      have hnone : env.statuses s (.told (.cancel execution) a raised ++ .noted line : Trace).events =
          [] := statuses_cancelled a raised line
      rw [hnone]
      exact ⟨nofun, Nat.le_add_left 1 rounds⟩
  | false =>
    obtain ⟨waited, ending, ht, -, hdeciding, hcount⟩ := h.inRounds
    have hone : (env.statuses (env.replay s waited) ending).length = 1 := hdeciding.asked
    rw [ht, Environment.statuses_append, List.length_append, hone]
    exact ⟨fun _ => Nat.succ_pos _, by omega⟩

namespace Attempt

/-- A waiting that has ended ends in the same way if fewer rounds are followed, one for each query. -/
theorem run_poll_of_le {events : List Event} {w' : World σ} {r : Except OrchestrationError Unit}
    (hrun : Session.run (poll execution polling started rounds).run env w = (some r, w'))
    (hevents : w'.events = w.events ++ events) (n : Nat)
    (hn : max 1 (env.statuses w.outside events).length ≤ n) :
    Session.run (poll execution polling started n).run env w = (some r, w') := by
  -- by the rounds followed: each but the last one makes a query and leads to the next
  induction rounds generalizing w events n with
  | zero => cases hrun
  | succ m ih =>
    obtain ⟨k, rfl⟩ : ∃ k, n = k + 1 := ⟨n - 1, by omega⟩
    rcases run_poll_round env execution polling started w with ⟨r', w'', h⟩ |
      ⟨p, naps, w₁, t, hl, ht, hdown, h⟩
    · rw [h] at hrun ⊢
      exact hrun
    · rw [h] at hrun ⊢
      obtain ⟨t₁, hl₁, hwatch⟩ := traces_poll execution polling started m w₁
      rw [hrun] at hl₁ hwatch
      rw [hdown] at hwatch
      have hsplit : events = t.events ++ t₁.events := by
        have hboth := hevents.symm.trans (hl.trans hl₁).events
        exact List.append_cancel_left hboth
      have hlength : (env.statuses w.outside events).length =
          (env.statuses w₁.outside t₁.events).length + 1 := by
        rw [hsplit, ht, hl.outside, ht, Waited.statuses_round]
        rfl
      have hpos := hwatch.count.1 rfl
      exact ih hrun hl₁.events k (by omega)

/-- As many rounds are needed to see a waiting end as it makes queries; one, where it makes none. -/
theorem poll_isSome_iff {events : List Event} {w' : World σ} {r : Except OrchestrationError Unit}
    (hrun : Session.run (poll execution polling started rounds).run env w = (some r, w'))
    (hevents : w'.events = w.events ++ events) (n : Nat) :
    (Session.run (poll execution polling started n).run env w).1.isSome = true ↔
      max 1 (env.statuses w.outside events).length ≤ n := by
  constructor
  · intro hsome
    obtain ⟨t, hl, hwatch⟩ := traces_poll execution polling started n w
    generalize hrun' : Session.run (poll execution polling started n).run env w = result at *
    obtain ⟨o, w''⟩ := result
    obtain ⟨r', rfl⟩ := Option.isSome_iff_exists.mp hsome
    have hle := hwatch.count.2
    -- both runs go on to the same end, so they are one
    have hfar := run_poll_of_le hrun' hl.events (max n (max 1 (env.statuses w.outside events).length))
      (by omega)
    have hfar' := run_poll_of_le hrun hevents
      (max n (max 1 (env.statuses w.outside events).length)) (by omega)
    rw [hfar] at hfar'
    cases hfar'
    have hsame : t.events = events := List.append_cancel_left (hl.events.symm.trans hevents)
    rwa [hsame] at hle
  · intro hn
    rw [run_poll_of_le hrun hevents n hn]
    rfl

theorem run_waitForCompletion (execution : Execution) (polling : Polling) (n : Nat) :
    Session.run (waitForCompletion execution polling n).run env w =
      Session.run (poll execution polling (env.clock w.outside) n).run env w := by
  rw [waitForCompletion, run_lift_bind, Session.run_bind]
  rfl

end Attempt

/-- A waiting that ends is decided by the answers to its queries, their times and the looks at the
flag. It queries once in every round; and with any other answer to its cancellation, if it sends one,
it differs in what it notes and in nothing else. -/
theorem waitForCompletion_decides (env : Environment σ) (execution : Execution) (polling : Polling)
    (rounds : Nat) (w w' : World σ) (r : Except OrchestrationError Unit)
    (hrun : Session.run (Attempt.waitForCompletion execution polling rounds).run env w = (some r, w')) :
    (∃ events, w'.events = w.events ++ events ∧
      Decided env execution polling w.outside w.interrupted events r ∧
      ∀ n, (Session.run (Attempt.waitForCompletion execution polling n).run env w).1.isSome = true ↔
        max 1 (env.statuses w.outside events).length ≤ n) ∧
    ∀ a, ∃ w'', Session.run (Attempt.waitForCompletion execution polling rounds).run
      (env.answeringCancel a) w = (some r, w'') ∧ w'.Alike w'' := by
  constructor
  · have hwaited : Traces env w (Attempt.waitForCompletion execution polling rounds).run
        (Watch env execution polling (env.clock w.outside) rounds w.outside w.interrupted) :=
      Attempt.traces_waitForCompletion execution polling rounds
    obtain ⟨t, hl, hwatch⟩ := hwaited
    rw [hrun] at hl hwatch
    refine ⟨t.events, hl.events, hwatch.decided, fun n => ?_⟩
    rw [Attempt.run_waitForCompletion] at hrun ⊢
    exact Attempt.poll_isSome_iff hrun hl.events n
  · intro a
    have hheedless : Heedless env a (Attempt.waitForCompletion execution polling rounds).run :=
      Attempt.heedless_waitForCompletion a execution polling rounds
    have hboth := hheedless w w (.refl w)
    rw [hrun] at hboth
    generalize Session.run _ (env.answeringCancel a) w = other at hboth
    obtain ⟨o, w''⟩ := other
    obtain ⟨hresult, halike⟩ := hboth
    exact ⟨w'', Prod.ext hresult rfl, halike⟩

/-- An execution that is asked after every 400 milliseconds and has a second to end. -/
def Polling.brisk : Polling where
  interval := 400
  deadline := some 1000

theorem overrun_decided : ∃ w',
    Session.run (Attempt.waitForCompletion ⟨⟨"e"⟩⟩ .brisk 4).run Rehearsal.environment
      { outside := { alwaysRunning := true } } = (some (.error (.pollDeadlineExceeded 1)), w') ∧
    (∃ events, w'.events = [] ++ events ∧
      Decided Rehearsal.environment ⟨⟨"e"⟩⟩ .brisk { alwaysRunning := true } false events
        (.error (.pollDeadlineExceeded 1)) ∧
      ∀ n, (Session.run (Attempt.waitForCompletion ⟨⟨"e"⟩⟩ .brisk n).run Rehearsal.environment
          { outside := { alwaysRunning := true } }).1.isSome = true ↔
        max 1 (Rehearsal.environment.statuses { alwaysRunning := true } events).length ≤ n) ∧
    ∀ a, ∃ w'', Session.run (Attempt.waitForCompletion ⟨⟨"e"⟩⟩ .brisk 4).run
      (Rehearsal.environment.answeringCancel a) { outside := { alwaysRunning := true } } =
        (some (.error (.pollDeadlineExceeded 1)), w'') ∧ w'.Alike w'' := by
  generalize hrun : Session.run (Attempt.waitForCompletion ⟨⟨"e"⟩⟩ .brisk 4).run Rehearsal.environment
    { outside := { alwaysRunning := true } } = result
  have hlate : result.1 = some (.error (.pollDeadlineExceeded 1)) := by
    rw [← hrun]
    decide +kernel
  obtain ⟨o, w'⟩ := result
  obtain rfl : o = some (.error (.pollDeadlineExceeded 1)) := hlate
  exact ⟨w', rfl, waitForCompletion_decides Rehearsal.environment ⟨⟨"e"⟩⟩ .brisk 4 _ w' _ hrun⟩

end GuardedRun
