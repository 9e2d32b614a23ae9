import GuardedRun.Decimal.Shortest

/-!
Milliseconds written as seconds.
-/

namespace GuardedRun.Text

open Decimal (Binary)

/-- Seconds as the sum of the whole ones and the rest, each rounded to 53 binary digits, in the
fewest decimals that tell the sum apart. -/
def seconds (milliseconds : Nat) : String :=
  ((Binary.nearest (milliseconds / 1000) 1).add (Binary.nearest (milliseconds % 1000) 1000)).text

end GuardedRun.Text
