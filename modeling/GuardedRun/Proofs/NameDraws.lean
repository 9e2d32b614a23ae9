import GuardedRun.Proofs.Naming
import Mathlib.Data.List.Nodup
import Mathlib.Data.List.Perm.Subperm

/-! Drawing names for temporary test sets, any number of times. Two numbers never make one name, so of one
more numbers than there are names taken one is free, and the search comes to an end. What was drawn before
is taken and behind; so the numbers drawn are the least free ones, each once. -/

namespace GuardedRun

/-- Numbers with a property, in ascending order, before which none with the property is left out. -/
structure Smallest (p : Nat → Prop) (numbers : List Nat) : Prop where
  ascending : numbers.Pairwise (· < ·)
  holds : ∀ n ∈ numbers, p n
  least : ∀ m, p m → m ∉ numbers → ∀ n ∈ numbers, n < m

namespace TemporaryNames

/-- The search from a number on: it passes taken names one by one, and ends at a free one. -/
inductive Seeks (names : TemporaryNames) : Nat → Nat → Prop
  | free {n} (fresh : names.candidate n ∉ names.taken) : Seeks names n n
  | pass {n m} (known : names.candidate n ∈ names.taken) (later : Seeks names (n + 1) m) :
    Seeks names n m

variable {names : TemporaryNames} {n m : Nat}

/-- What a number of draws give, one after the other. -/
def drawn : Nat → TemporaryNames → List (Except NameFault TestSetName)
  | 0, _ => []
  | k + 1, names => names.draw.1 :: drawn k names.draw.2

/-- The numbers at which a number of draws find free names. -/
def numbers : Nat → TemporaryNames → List Nat
  | 0, _ => []
  | k + 1, names => names.freeNumber :: numbers k names.draw.2

theorem candidate_injective (names : TemporaryNames) : Function.Injective names.candidate := by
  intro n m h
  have htexts := congrArg String.toList h
  rw [toList_candidate, toList_candidate] at htexts
  have hdigits : Nat.toDigits 10 n = Nat.toDigits 10 m :=
    (List.cons.inj (List.append_cancel_left htexts)).2
  -- a number is read back from its digits
  calc n = Nat.ofDigitChars 10 (Nat.toDigits 10 n) 0 := Nat.ofDigitChars_ten_toDigits.symm
    _ = Nat.ofDigitChars 10 (Nat.toDigits 10 m) 0 := by rw [hdigits]
    _ = m := Nat.ofDigitChars_ten_toDigits

/-- Among one more numbers than there are names taken, one is free. -/
theorem exists_free (names : TemporaryNames) :
    ∃ n ∈ List.range' names.next (names.taken.length + 1), names.candidate n ∉ names.taken := by
  by_contra hnone
  have hall : (List.range' names.next (names.taken.length + 1)).map names.candidate ⊆ names.taken := by
    intro text htext
    obtain ⟨n, hn, rfl⟩ := List.mem_map.mp htext
    by_contra hfree
    exact hnone ⟨n, hn, hfree⟩
  have hnodup : ((List.range' names.next (names.taken.length + 1)).map names.candidate).Nodup :=
    List.Nodup.map names.candidate_injective (List.nodup_range' 1)
  have hlength := (List.subperm_of_subset hnodup hall).length_le
  rw [List.length_map, List.length_range'] at hlength
  omega

/-- A draw finds the first free number from the next one on. -/
theorem freeNumber_spec (names : TemporaryNames) :
    names.next ≤ names.freeNumber ∧ names.candidate names.freeNumber ∉ names.taken ∧
      ∀ n, names.next ≤ n → n < names.freeNumber → names.candidate n ∈ names.taken := by
  obtain ⟨n, hn, hfree⟩ := names.exists_free
  cases hfind : (List.range' names.next (names.taken.length + 1)).find? fun number =>
      decide (names.candidate number ∉ names.taken) with
  | none =>
    have htaken := List.find?_eq_none.mp hfind n hn
    exact absurd (decide_eq_true hfree) htaken
  | some m =>
    have hnumber : names.freeNumber = m := by rw [freeNumber, hfind, Option.getD_some]
    obtain ⟨hm, hrange, hbefore⟩ := List.find?_range'_eq_some.mp hfind
    rw [hnumber]
    refine ⟨(List.mem_range'_1.mp hrange).1, of_decide_eq_true hm, fun n hn hlt => ?_⟩
    simpa using hbefore n hn hlt

theorem Seeks.of_taken (hfree : names.candidate m ∉ names.taken) :
    ∀ n, n ≤ m → (∀ i, n ≤ i → i < m → names.candidate i ∈ names.taken) → names.Seeks n m := by
  intro n hle
  -- by the distance that is still to go
  obtain ⟨distance, rfl⟩ := Nat.exists_eq_add_of_le hle
  clear hle
  induction distance generalizing n with
  | zero => exact fun _ => .free hfree
  | succ distance ih =>
    intro htaken
    have hnext : n + (distance + 1) = n + 1 + distance := by omega
    rw [hnext] at hfree htaken ⊢
    exact .pass (htaken n (by omega) (by omega)) (ih (n + 1) hfree fun i hi => htaken i (by omega))

/-- Every search ends, and where it does the draw takes the name. -/
theorem seeks_freeNumber (names : TemporaryNames) : names.Seeks names.next names.freeNumber := by
  obtain ⟨hle, hfree, htaken⟩ := names.freeNumber_spec
  exact .of_taken hfree names.next hle htaken

theorem numbers_length (k : Nat) (names : TemporaryNames) : (numbers k names).length = k := by
  induction k generalizing names with
  | zero => rfl
  | succ k ih => rw [numbers, List.length_cons, ih]

theorem drawn_eq (k : Nat) (names : TemporaryNames) :
    drawn k names = (numbers k names).map fun n => Name.parse (names.candidate n) := by
  induction k generalizing names with
  | zero => rfl
  | succ k ih =>
    rw [drawn, ih, numbers, List.map_cons, fst_draw]
    rfl

/-- A draw leaves the names of later numbers as they are, free or taken. -/
theorem mem_taken_draw (hn : names.freeNumber < n) :
    names.candidate n ∈ names.draw.2.taken ↔ names.candidate n ∈ names.taken := by
  have hother : names.candidate n ≠ names.candidate names.freeNumber := by
    intro h
    have hsame := names.candidate_injective h
    omega
  exact (List.mem_cons).trans (or_iff_right hother)

/-- From the next number on it makes no difference whether names count as taken that were drawn. -/
theorem numbers_smallest (k : Nat) (names : TemporaryNames) (former : List String)
    (hformer : ∀ n, names.next ≤ n → (names.candidate n ∈ names.taken ↔ names.candidate n ∈ former)) :
    Smallest (fun n => names.next ≤ n ∧ names.candidate n ∉ former) (numbers k names) := by
  induction k generalizing names with
  | zero => exact ⟨.nil, List.forall_mem_nil _, fun _ _ _ => List.forall_mem_nil _⟩
  | succ k ih =>
    obtain ⟨hle, hfree, htaken⟩ := names.freeNumber_spec
    have hlater : Smallest (fun n => names.freeNumber + 1 ≤ n ∧ names.candidate n ∉ former)
        (numbers k names.draw.2) := by
      refine ih names.draw.2 fun n hn => ?_
      have hlt : names.freeNumber < n := hn
      exact (mem_taken_draw hlt).trans (hformer n (by omega))
    rw [numbers]
    constructor
    · exact List.pairwise_cons.mpr ⟨fun n hn => (hlater.holds n hn).1, hlater.ascending⟩
    · refine List.forall_mem_cons.mpr ⟨⟨hle, fun h => hfree ((hformer _ hle).mpr h)⟩, fun n hn => ?_⟩
      obtain ⟨hafter, hfresh⟩ := hlater.holds n hn
      exact ⟨by omega, hfresh⟩
    · rintro m ⟨hnext, hfresh⟩ hm
      rw [List.mem_cons, not_or] at hm
      obtain ⟨hne, hrest⟩ := hm
      -- before the number that was found, all names are taken
      have hgt : names.freeNumber < m := by
        by_contra hbefore
        exact hfresh ((hformer m hnext).mp (htaken m hnext (by omega)))
      exact List.forall_mem_cons.mpr ⟨hgt, hlater.least m ⟨hgt, hfresh⟩ hrest⟩

end TemporaryNames

end GuardedRun
