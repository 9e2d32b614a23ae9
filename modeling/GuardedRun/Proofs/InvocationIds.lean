import GuardedRun.Invocation
import Mathlib.Tactic.Ring

/-! Numbers written in base 36 are read back from their digits, with and without leading zeros; so an
invocation id tells the moment and the sample that it was made of. -/

namespace GuardedRun

namespace Text.Base36

/-- The digits, each at the place of its value. -/
def alphabet : List Char :=
  ['0', '1', '2', '3', '4', '5', '6', '7', '8', '9', 'a', 'b', 'c', 'd', 'e', 'f', 'g', 'h', 'i', 'j', 'k',
    'l', 'm', 'n', 'o', 'p', 'q', 'r', 's', 't', 'u', 'v', 'w', 'x', 'y', 'z']

theorem map_digitValue_alphabet : alphabet.map digitValue = List.range 36 := by decide

theorem digit_facts : ∀ n : Fin 36, digit n ∈ alphabet ∧ digitValue (digit n) = n ∧
    (digit n = '0' → n = 0) := by decide

theorem digit_mem {n : Nat} (h : n < 36) : digit n ∈ alphabet := (digit_facts ⟨n, h⟩).1

theorem digitValue_digit {n : Nat} (h : n < 36) : digitValue (digit n) = n := (digit_facts ⟨n, h⟩).2.1

theorem eq_zero_of_digit {n : Nat} (h : n < 36) (hzero : digit n = '0') : n = 0 :=
  congrArg Fin.val ((digit_facts ⟨n, h⟩).2.2 hzero)

@[simp] theorem value_concat (s : List Char) (c : Char) :
    value (s ++ [c]) = 36 * value s + digitValue c := by
  rw [value, value, List.foldl_append, List.foldl_cons, List.foldl_nil]

theorem digits_of_lt {v : Nat} (h : v < 36) : digits v = [digit v] := by
  rw [digits, if_pos h]

/-- From 36 on the last digit is what is left of the division, and the others are the quotient's. -/
theorem digits_of_le {v : Nat} (h : 36 ≤ v) : digits v = digits (v / 36) ++ [digit (v % 36)] := by
  rw [digits, if_neg (by omega)]

theorem mem_digits (v : Nat) : ∀ c ∈ digits v, c ∈ alphabet := by
  induction v using Nat.strongRecOn with
  | ind v ih =>
    rcases Nat.lt_or_ge v 36 with hless | hge
    · rw [digits_of_lt hless]
      simpa using digit_mem hless
    · have hlast : digit (v % 36) ∈ alphabet := digit_mem (by omega)
      rw [digits_of_le hge]
      exact List.forall_mem_append.mpr ⟨ih (v / 36) (by omega), by simpa using hlast⟩

theorem value_digits (v : Nat) : value (digits v) = v := by
  induction v using Nat.strongRecOn with
  | ind v ih =>
    rcases Nat.lt_or_ge v 36 with hless | hge
    · rw [digits_of_lt hless]
      simpa [value] using digitValue_digit hless
    · have hquotient : value (digits (v / 36)) = v / 36 := ih (v / 36) (by omega)
      have hlast : digitValue (digit (v % 36)) = v % 36 := digitValue_digit (by omega)
      calc value (digits v)
          = 36 * value (digits (v / 36)) + digitValue (digit (v % 36)) := by
            rw [digits_of_le hge, value_concat]
        _ = 36 * (v / 36) + v % 36 := by rw [hquotient, hlast]
        _ = v := by omega

theorem digits_ne_nil (v : Nat) : digits v ≠ [] := by
  rcases Nat.lt_or_ge v 36 with hless | hge
  · simp [digits_of_lt hless]
  · simp [digits_of_le hge]

/-- Only zero is written with a zero in front. -/
theorem head?_digits (v : Nat) : (digits v).head? = some '0' ↔ v = 0 := by
  constructor
  · -- the first digit is the one of the last quotient, which is not zero
    induction v using Nat.strongRecOn with
    | ind v ih =>
      intro hhead
      rcases Nat.lt_or_ge v 36 with hless | hge
      · rw [digits_of_lt hless] at hhead
        exact eq_zero_of_digit hless (by simpa using hhead)
      · have hsame : (digits v).head? = (digits (v / 36)).head? := by
          obtain ⟨c, rest, hparts⟩ := List.exists_cons_of_ne_nil (digits_ne_nil (v / 36))
          rw [digits_of_le hge, hparts, List.cons_append, List.head?_cons, List.head?_cons]
        have hquotient : v / 36 = 0 := ih (v / 36) (by omega) (hsame ▸ hhead)
        omega
  · rintro rfl
    decide +kernel

theorem mem_fixedDigits (width v : Nat) : ∀ c ∈ fixedDigits width v, c ∈ alphabet := by
  induction width generalizing v with
  | zero => exact List.forall_mem_nil _
  | succ width ih =>
    have hlast : digit (v % 36) ∈ alphabet := digit_mem (by omega)
    rw [fixedDigits]
    exact List.forall_mem_append.mpr ⟨ih (v / 36), by simpa using hlast⟩

/-- The digits that do not fit are the ones in front. -/
theorem value_fixedDigits (width v : Nat) : value (fixedDigits width v) = v % 36 ^ width := by
  induction width generalizing v with
  | zero => simp [fixedDigits, value, Nat.mod_one]
  | succ width ih =>
    have hlast : digitValue (digit (v % 36)) = v % 36 := digitValue_digit (by omega)
    calc value (fixedDigits (width + 1) v)
        = 36 * value (fixedDigits width (v / 36)) + digitValue (digit (v % 36)) := by
          rw [fixedDigits, value_concat]
      _ = v % 36 + 36 * (v / 36 % 36 ^ width) := by rw [ih, hlast, Nat.add_comm]
      _ = v % (36 * 36 ^ width) := (Nat.mod_mul).symm
      _ = v % 36 ^ (width + 1) := by rw [Nat.pow_succ, Nat.mul_comm]

end Text.Base36

namespace Invocation

open Text.Base36

/-- The characters of the id of a moment. -/
def chars (seconds sample : Nat) : List Char :=
  "inv-".toList ++ (digits seconds ++ '-' :: fixedDigits 4 (sample % sampleSpace))

theorem id_eq (seconds sample : Nat) :
    id (seconds : Int) sample = .ok (String.ofList (chars seconds sample)) := by
  have htext : "inv-" ++ String.ofList (digits seconds) ++ "-" ++ tail sample =
      String.ofList (chars seconds sample) := by
    apply String.toList_inj.mp
    simp [chars, tail, String.toList_append]
  exact congrArg Except.ok htext

/-- The last four characters are the sample's, so it need not be known where the moment's digits end. -/
theorem chars_inj {seconds seconds' sample sample' : Nat} (hsample : sample < sampleSpace)
    (hsample' : sample' < sampleSpace) (h : chars seconds sample = chars seconds' sample') :
    seconds = seconds' ∧ sample = sample' := by
  have hrest := List.append_cancel_left h
  have hlength : ('-' :: fixedDigits 4 (sample % sampleSpace)).length =
      ('-' :: fixedDigits 4 (sample' % sampleSpace)).length := by
    simp only [List.length_cons, length_fixedDigits]
  obtain ⟨hmoment, htail⟩ := List.append_inj' hrest hlength
  have hread (s : Nat) (hs : s < sampleSpace) : value (fixedDigits 4 (s % sampleSpace)) = s := by
    have hspace : 36 ^ 4 = sampleSpace := rfl
    rw [value_fixedDigits, hspace, Nat.mod_mod, Nat.mod_eq_of_lt hs]
  constructor
  · rw [← value_digits seconds, hmoment, value_digits]
  · rw [← hread sample hsample, (List.cons.inj htail).2, hread sample' hsample']

/-- Numbers are read back from their digits in base 36, of which only zero begins with a zero; of the digits
of a fixed width what is read is the rest that fits. There is an id for every moment from the epoch on and
every sample, and no two pairs of them share one. -/
theorem ids_lossless :
    alphabet.map digitValue = List.range 36 ∧
    (∀ v : UInt64, (∀ c ∈ digits v.toNat, c ∈ alphabet) ∧
      ((digits v.toNat).head? = some '0' ↔ v = 0) ∧ value (digits v.toNat) = v.toNat) ∧
    (∀ (v : UInt32) (width : Nat), (fixedDigits width v.toNat).length = width ∧
      (∀ c ∈ fixedDigits width v.toNat, c ∈ alphabet) ∧
      value (fixedDigits width v.toNat) = v.toNat % 36 ^ width) ∧
    (∀ seconds sample : Nat, (id (seconds : Int) sample).isOk = true) ∧
    Function.Injective fun p : Nat × Fin sampleSpace => id (p.1 : Int) p.2 := by
  refine ⟨map_digitValue_alphabet, fun v => ⟨mem_digits _, ?_, value_digits _⟩,
    fun v width => ⟨length_fixedDigits _ _, mem_fixedDigits _ _, value_fixedDigits _ _⟩,
    fun seconds sample => by rw [id_eq]; rfl, ?_⟩
  · rw [head?_digits]
    exact UInt64.toNat_inj (b := 0)
  · rintro ⟨seconds, sample⟩ ⟨seconds', sample'⟩ h
    have hchars : chars seconds sample = chars seconds' sample' := by
      have htext := h
      simp only [id_eq, Except.ok.injEq, String.ofList_inj] at htext
      exact htext
    obtain ⟨hseconds, hsample⟩ := chars_inj sample.isLt sample'.isLt hchars
    rw [hseconds, Fin.ext hsample]

end Invocation

end GuardedRun
