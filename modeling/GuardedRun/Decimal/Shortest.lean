/-!
Numbers of 53 binary digits, and the shortest decimal that reads back as one of them. A decimal
reads back as the number that is nearest to it, so it has to lie within half a unit of the last
binary digit; of the decimals with the fewest digits the nearest is taken.
-/

namespace GuardedRun.Decimal

/-- The number `mantissa · 2 ^ exponent`. -/
structure Binary where
  mantissa : Nat
  exponent : Int
  deriving DecidableEq, Repr

/-- A quotient rounded to the nearest number; a half goes to the even neighbour. -/
def roundDiv (n d : Nat) : Nat :=
  let q := n / d
  let twice := 2 * (n % d)
  if d < twice ∨ (twice = d ∧ q % 2 = 1) then q + 1 else q

namespace Binary

/-- The least mantissa of 53 binary digits. -/
def leastMantissa : Nat := Nat.pow 2 52

/-- The value as a quotient of two numbers. -/
def quotient (b : Binary) : Nat × Nat :=
  (b.mantissa * Nat.pow 2 b.exponent.toNat, Nat.pow 2 (-b.exponent).toNat)

/-- The number of 53 digits that is nearest to a quotient. -/
def nearest (n d : Nat) : Binary :=
  if n = 0 then ⟨0, 0⟩
  else
    let scaled (k : Int) : Nat × Nat := (n * Nat.pow 2 k.toNat, d * Nat.pow 2 (-k).toNat)
    -- the power of two that brings the quotient to 53 digits, off by one at most
    let k : Int := 52 - (n.log2 : Int) + d.log2
    let k := if (scaled k).1 < leastMantissa * (scaled k).2 then k + 1 else k
    let m := roundDiv (scaled k).1 (scaled k).2
    -- rounding up may carry into a 54th digit
    if m = 2 * leastMantissa then ⟨leastMantissa, 1 - k⟩ else ⟨m, -k⟩

/-- The nearest number to a sum. -/
def add (a b : Binary) : Binary :=
  let (n, d) := a.quotient
  let (n', d') := b.quotient
  nearest (n * d' + n' * d) (d * d')

/-- The decimal `c · 10 ^ j` reads back as the number. -/
def readsBack (b : Binary) (c : Nat) (j : Int) : Bool :=
  let value := 4 * c * Nat.pow 10 j.toNat * Nat.pow 2 (-b.exponent).toNat
  let quarter := Nat.pow 10 (-j).toNat * Nat.pow 2 b.exponent.toNat
  -- below a power of two the numbers lie twice as close
  let low := (4 * b.mantissa - if b.mantissa = leastMantissa then 1 else 2) * quarter
  let high := (4 * b.mantissa + 2) * quarter
  if b.mantissa % 2 = 0 then low ≤ value && value ≤ high else low < value && value < high

/-- The nearest multiple of `10 ^ j` that reads back as the number, if there is one. -/
def onGrid? (b : Binary) (j : Int) : Option (Nat × Int) :=
  let (n, d) := b.quotient
  let n := n * Nat.pow 10 (-j).toNat
  let d := d * Nat.pow 10 j.toNat
  let below := n / d
  let nearer := if 2 * (n % d) < d then [below, below + 1] else [below + 1, below]
  (nearer.find? (b.readsBack · j)).map (·, j)

/-- The shortest decimal of a number between `10 ^ -3` and `10 ^ 20`. -/
def shortest (b : Binary) : Nat × Int :=
  ((List.range 41).findSome? fun (i : Nat) => b.onGrid? (20 - (i : Int))).getD (0, 0)

/-- The shortest decimal, written without an exponent. -/
def text (b : Binary) : String :=
  let (c, j) := b.shortest
  let digits := Nat.toDigits 10 c
  if 0 ≤ j then String.ofList (digits ++ if c = 0 then [] else List.replicate j.toNat '0')
  else
    let places := (-j).toNat
    let padded := List.replicate (places + 1 - digits.length) '0' ++ digits
    let whole := padded.length - places
    String.ofList (padded.take whole ++ '.' :: padded.drop whole)

end Binary

end GuardedRun.Decimal
