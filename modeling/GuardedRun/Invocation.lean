import GuardedRun.Text.Base36

/-!
The id of one invocation: the moment it started, in seconds, and a random number, both in base 36.
-/

namespace GuardedRun.Invocation

/-- As many random numbers as four digits can tell apart. -/
def sampleSpace : Nat := Nat.pow 36 4

/-- The part of an id that the moment gives; there is none for a moment before the epoch. -/
def head (now : Int) : Except String String :=
  match now with
  | .ofNat seconds => .ok ("inv-" ++ String.ofList (Text.Base36.digits seconds))
  | .negSucc _ => .error "invocation id requires a non-negative timestamp"

def tail (sample : Nat) : String := String.ofList (Text.Base36.fixedDigits 4 (sample % sampleSpace))

def id (now : Int) (sample : Nat) : Except String String :=
  (head now).map (· ++ "-" ++ tail sample)

end GuardedRun.Invocation
