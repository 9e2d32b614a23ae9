/-!
Numbers in base 36, digits 0-9 and a-z. Invocation ids are written in it.
-/

namespace GuardedRun.Text.Base36

/-- The digit of a value below 36; larger values have none and get the last digit. -/
def digit (n : Nat) : Char :=
  if n < 10 then Char.ofNat ('0'.toNat + n) else Char.ofNat ('a'.toNat + min (n - 10) 25)

def digitValue (c : Char) : Nat :=
  if c.toNat < 'a'.toNat then c.toNat - '0'.toNat else c.toNat - 'a'.toNat + 10

/-- The digits without leading zeros; zero is written with one digit. -/
def digits (v : Nat) : List Char :=
  if v < 36 then [digit v] else digits (v / 36) ++ [digit (v % 36)]
termination_by v

/-- The last `width` digits, with leading zeros where there are fewer. -/
def fixedDigits : (width v : Nat) → List Char
  | 0, _ => []
  | width + 1, v => fixedDigits width (v / 36) ++ [digit (v % 36)]

/-- The number that a list of digits stands for. -/
def value (s : List Char) : Nat := s.foldl (fun v c => 36 * v + digitValue c) 0

theorem length_fixedDigits (width v : Nat) : (fixedDigits width v).length = width := by
  induction width generalizing v with
  | zero => rfl
  | succ width ih => simp [fixedDigits, ih]

end GuardedRun.Text.Base36
