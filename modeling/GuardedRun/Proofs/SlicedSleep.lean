import GuardedRun.Proofs.PollVerdict
import GuardedRun.Rehearsal.Machine

/-! Sleeping in slices. The flag is looked at before every slice and after the last one, so a sleep that
nobody disturbs takes exactly its time, and a disturbed one ends less than a slice after the flag came
up. Time is counted in any unit, so that no duration and no moment is left out. -/

namespace GuardedRun

variable {σ : Type} {env : Environment σ} {unit : TimeUnit} {moment? : Option Nat}

open Session
open Event (marker)

/-- A flag that comes up at a moment, or never, is up when some time has passed. -/
def raisedBy (moment? : Option Nat) (elapsed : Nat) : Bool := moment?.any (· ≤ elapsed)

theorem raisedBy_iff {elapsed : Nat} :
    raisedBy moment? elapsed = true ↔ ∃ t, moment? = some t ∧ t ≤ elapsed := by
  cases moment? with
  | none => simp [raisedBy]
  | some t => simp [raisedBy]

/-- A state in which a sleep has gone on for some time. Only pauses let time pass, and from a moment of
the sleep on the flag is up; without such a moment it stays down. -/
def Environment.RaisesAt (env : Environment σ) (moment? : Option Nat) (elapsed : Nat) (s : σ) : Prop :=
  ∀ naps : List Nat,
    env.interrupted (env.replay s (naps.map .slept)) = raisedBy moment? (elapsed + naps.sum)

theorem Environment.RaisesAt.pause {elapsed : Nat} {s : σ} (h : env.RaisesAt moment? elapsed s) (n : Nat) :
    env.RaisesAt moment? (elapsed + n) (env.pause n s) := by
  intro naps
  have hlater := h (n :: naps)
  rwa [List.sum_cons, ← Nat.add_assoc] at hlater

/-- The slices of what is left of a sleep that has gone on for some time, and whether it passes. -/
inductive Slices (unit : TimeUnit) (moment? : Option Nat) : Nat → Nat → List Nat → Bool → Prop
  | refused (elapsed left) (up : raisedBy moment? elapsed = true) :
    Slices unit moment? elapsed left [] false
  | ended (elapsed) (down : raisedBy moment? elapsed = false) : Slices unit moment? elapsed 0 [] true
  | slept (elapsed left naps passed) (down : raisedBy moment? elapsed = false) (more : left ≠ 0)
    (rest : Slices unit moment? (elapsed + min left unit.slice) (left - unit.slice) naps passed) :
    Slices unit moment? elapsed left (min left unit.slice :: naps) passed

namespace Slices

variable {elapsed left : Nat} {naps : List Nat} {passed : Bool}

/-- Nothing is slept under a flag that is up. -/
theorem of_up (h : Slices unit moment? elapsed left naps passed)
    (hup : raisedBy moment? elapsed = true) : naps = [] ∧ passed = false := by
  cases h with
  | refused => exact ⟨rfl, rfl⟩
  | ended _ down | slept _ _ _ _ down => exact Bool.noConfusion (hup.symm.trans down)

theorem bounds (h : Slices unit moment? elapsed left naps passed) :
    ∀ n ∈ naps, 0 < n ∧ n ≤ unit.slice := by
  induction h with
  | refused | ended => exact nofun
  | slept elapsed left naps passed down more rest ih =>
    have hslice := unit.slice_pos
    exact List.forall_mem_cons.mpr ⟨⟨by omega, Nat.min_le_right _ _⟩, ih⟩

/-- What is slept and what is left make up the time at every look, so a sleep that passes loses nothing. -/
theorem sum_facts (h : Slices unit moment? elapsed left naps passed) :
    naps.sum ≤ left ∧ (passed = true → naps.sum = left) := by
  induction h with
  | refused elapsed left up => exact ⟨Nat.zero_le left, nofun⟩
  | ended => exact ⟨Nat.le_refl 0, fun _ => rfl⟩
  | slept elapsed left naps passed down more rest ih =>
    obtain ⟨hle, hwhole⟩ := ih
    rw [List.sum_cons]
    constructor
    · omega
    · intro hpassed
      have hrest := hwhole hpassed
      omega

/-- The last look at the flag decides. -/
theorem last_look (h : Slices unit moment? elapsed left naps passed) :
    raisedBy moment? (elapsed + naps.sum) = !passed := by
  induction h with
  | refused elapsed left up => exact up
  | ended elapsed down => exact down
  | slept elapsed left naps passed down more rest ih => rwa [List.sum_cons, ← Nat.add_assoc]

/-- The look before the last slice found the flag down. -/
theorem overshoot {t : Nat} (h : Slices unit (some t) elapsed left naps passed) :
    naps = [] ∨ elapsed + naps.sum < t + unit.slice := by
  induction h with
  | refused | ended => exact .inl rfl
  | slept elapsed left naps passed down more rest ih =>
    have hbefore : elapsed < t := by simpa [raisedBy] using down
    have hslice : min left unit.slice ≤ unit.slice := Nat.min_le_right _ _
    right
    rw [List.sum_cons]
    -- either this slice is the last one, or the bound is that of a later one
    rcases ih with rfl | hless
    · rw [List.sum_nil]
      omega
    · omega

/-- A sleep passes if the moment of the flag lies behind its end. -/
theorem passed_iff (h : Slices unit moment? elapsed left naps passed) :
    passed = true ↔ ∀ t, moment? = some t → elapsed + left < t := by
  obtain ⟨hle, hwhole⟩ := h.sum_facts
  have hlook := h.last_look
  cases passed with
  | true =>
    rw [hwhole rfl] at hlook
    refine iff_of_true rfl fun t ht => ?_
    by_contra hcome
    have hup : raisedBy moment? (elapsed + left) = true := raisedBy_iff.mpr ⟨t, ht, by omega⟩
    exact Bool.noConfusion (hup.symm.trans hlook)
  | false =>
    obtain ⟨t, ht, hcome⟩ := raisedBy_iff.mp hlook
    refine iff_of_false Bool.false_ne_true fun hlater => ?_
    have hlate := hlater t ht
    omega

end Slices

/-- What a sleep of a time comes to: slices of which none is too long, and an end that an interrupt puts
forward, less than a slice after it came in, if it came in before the time was over. -/
structure Punctual (unit : TimeUnit) (total : Nat) (moment? : Option Nat) (naps : List Nat)
    (passed : Bool) : Prop where
  slices : ∀ n ∈ naps, 0 < n ∧ n ≤ unit.slice
  passes : passed = true ↔ ∀ t, moment? = some t → total < t
  whole : passed = true → naps.sum = total
  prompt : ∀ t, moment? = some t → t ≤ total →
    passed = false ∧ t ≤ naps.sum ∧ naps.sum < t + unit.slice ∧ naps.sum ≤ total

theorem Slices.punctual {total : Nat} {naps : List Nat} {passed : Bool}
    (h : Slices unit moment? 0 total naps passed) : Punctual unit total moment? naps passed := by
  obtain ⟨hle, hwhole⟩ := h.sum_facts
  have hpassed := h.passed_iff
  rw [Nat.zero_add] at hpassed
  refine ⟨h.bounds, hpassed, hwhole, ?_⟩
  rintro t rfl hcome
  have hbroken : passed = false := by
    by_contra hpasses
    have hlater := hpassed.mp (by simpa using hpasses) t rfl
    omega
  have hseen : t ≤ naps.sum := by
    have hlook := h.last_look
    rw [hbroken] at hlook
    simpa [raisedBy] using hlook
  have hprompt : naps.sum < t + unit.slice := by
    have hslice := unit.slice_pos
    rcases h.overshoot with rfl | hless
    · rw [List.sum_nil]
      omega
    · omega
  exact ⟨hbroken, hseen, hprompt, hle⟩

namespace Session

/-- A look at the flag, and a slice if it is down. -/
theorem run_sleepIn {total : Nat} (h : total ≠ 0) (w : World σ) :
    (sleepIn unit total).run env w =
      if w.interrupted then (some false, w)
      else (sleepIn unit (total - unit.slice)).run env
        (w.after env (.slept (min total unit.slice)) (env.pause (min total unit.slice) w.outside)) := by
  rw [sleepIn, if_neg h, run_bind]
  show Session.run (if w.interrupted then _ else _) env w = _
  cases w.interrupted <;> rfl

/-- A sleep always ends, whatever its length. It does nothing but sleep through its slices, and the
interrupt that breaks it comes in during the last one. -/
theorem sleepIn_slices {elapsed total : Nat} {w : World σ}
    (hraises : env.RaisesAt moment? elapsed w.outside)
    (hflag : w.interrupted = raisedBy moment? elapsed) :
    ∃ passed w' naps, (sleepIn unit total).run env w = (some passed, w') ∧
      w'.events = w.events ++ (naps.map .slept ++ marker (!w.interrupted && !passed)) ∧
      Slices unit moment? elapsed total naps passed := by
  -- by the slices that are left; at each look the flag that is known is the one outside
  induction total using sleepIn.induct unit generalizing elapsed w with
  | case1 =>
    have hrun : (sleepIn unit 0).run env w = (some !w.interrupted, w) := by
      rw [sleepIn, if_pos rfl, run_bind]
      rfl
    refine ⟨_, w, [], hrun, by simp [marker], ?_⟩
    rw [hflag]
    cases hup : raisedBy moment? elapsed with
    | true => exact .refused elapsed 0 hup
    | false => exact .ended elapsed hup
  | case2 total hmore ih =>
    rw [run_sleepIn hmore]
    cases hup : raisedBy moment? elapsed with
    | true =>
      rw [hflag, hup, if_pos rfl]
      exact ⟨false, w, [], rfl, by simp [marker], .refused elapsed total hup⟩
    | false =>
      rw [hflag, hup, if_neg Bool.false_ne_true]
      have hlater := hraises.pause (min total unit.slice)
      have hnow : env.interrupted (env.pause (min total unit.slice) w.outside) =
          raisedBy moment? (elapsed + min total unit.slice) := hlater []
      have hknown : (w.after env (.slept (min total unit.slice))
          (env.pause (min total unit.slice) w.outside)).interrupted =
            raisedBy moment? (elapsed + min total unit.slice) := by
        rw [World.after, hflag, hup, hnow, Bool.false_or]
      obtain ⟨passed, w', naps, hrun, hevents, hslices⟩ := ih hlater hknown
      refine ⟨passed, w', min total unit.slice :: naps, hrun, ?_,
        .slept elapsed total naps passed hup hmore hslices⟩
      have hslice : (w.after env (.slept (min total unit.slice))
          (env.pause (min total unit.slice) w.outside)).events = w.events ++
            .slept (min total unit.slice) ::
              marker (raisedBy moment? (elapsed + min total unit.slice)) := by
        rw [World.after, hflag, hup, hnow]
        rfl
      rw [hevents, hknown, hslice]
      cases hcome : raisedBy moment? (elapsed + min total unit.slice) with
      | true =>
        -- the next look finds the flag up, so this slice is the last one
        obtain ⟨rfl, rfl⟩ := hslices.of_up hcome
        simp [marker]
      | false => simp [marker]

/-- Where only pauses let time pass and the flag that is known at first is the one outside, a sleep always
ends and keeps to its time. It passes if the flag is still down when the time is over, and has then taken
exactly that time; otherwise it ends after the moment of the flag by less than a slice of 200 milliseconds,
and never after its time. -/
theorem sleepIn_punctual (env : Environment σ) (unit : TimeUnit) (total : Nat) (moment? : Option Nat)
    (w : World σ) (hraises : env.RaisesAt moment? 0 w.outside)
    (hflag : w.interrupted = env.interrupted w.outside) :
    ∃ passed w' naps, (sleepIn unit total).run env w = (some passed, w') ∧
      w'.events = w.events ++ (naps.map .slept ++ marker (!w.interrupted && !passed)) ∧
      Punctual unit total moment? naps passed := by
  have hstart : env.interrupted w.outside = raisedBy moment? 0 := hraises []
  obtain ⟨passed, w', naps, hrun, hevents, hslices⟩ := sleepIn_slices hraises (hflag.trans hstart)
  exact ⟨passed, w', naps, hrun, hevents, hslices.punctual⟩

end Session

namespace Rehearsal.Machine

/-- What a machine is to a session with the engine that is there by default. -/
def environment : Environment Machine :=
  host.environment ({} : Settings).endpoint ({} : Settings).timeouts

/-- On a machine time passes by pauses alone. -/
theorem raisesAt_environment (m : Machine) (h : m.interrupted = false) :
    environment.RaisesAt m.interruptAt m.clock m := by
  intro naps
  induction naps generalizing m with
  | nil =>
    show m.isInterrupted = raisedBy m.interruptAt m.clock
    rw [isInterrupted, h, Bool.false_or, raisedBy]
  | cons n naps ih =>
    have hlater := ih { m with clock := m.clock + n } h
    rwa [Nat.add_assoc, ← List.sum_cons] at hlater

/-- A machine on which an interrupt comes in after a quarter of a second and 250 microseconds, counted
in nanoseconds. -/
def impatient : Machine where
  interruptAt := some 250250000

end Rehearsal.Machine

def TimeUnit.nanosecond : TimeUnit := ⟨1000000, by decide⟩

open Rehearsal (Machine)

theorem impatient_sleep_broken : Machine.environment.RaisesAt (some 250250000) 0 .impatient ∧
    false = Machine.environment.interrupted .impatient ∧
    ∃ w' : World Machine, ∃ naps : List Nat,
      (sleepIn .nanosecond 450500000).run Machine.environment { outside := .impatient } = (some false, w') ∧
      w'.events = naps.map .slept ++ [.interrupted] ∧ (∀ n ∈ naps, 0 < n ∧ n ≤ 200000000) ∧
      250250000 ≤ naps.sum ∧ naps.sum < 450250000 := by
  have hraises : Machine.environment.RaisesAt (some 250250000) 0 .impatient :=
    Machine.raisesAt_environment .impatient rfl
  have hflag : false = Machine.environment.interrupted .impatient := by decide
  obtain ⟨passed, w', naps, hrun, hevents, hpunctual⟩ := sleepIn_punctual Machine.environment .nanosecond
    450500000 (some 250250000) { outside := .impatient } hraises hflag
  obtain ⟨rfl, hlong, hshort, -⟩ := hpunctual.prompt 250250000 rfl (by decide)
  exact ⟨hraises, hflag, w', naps, hrun, hevents, hpunctual.slices, hlong, hshort⟩

end GuardedRun
