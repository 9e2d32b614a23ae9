import GuardedRun.Name

/-!
Names for temporary test sets: a fixed stem and the least number whose name is still free. Of one
more numbers than there are names taken, one is free, so a name is always found.
-/

namespace GuardedRun

structure TemporaryNames where
  stem : String
  taken : List String
  next : Nat := 1
  deriving DecidableEq, Repr

namespace TemporaryNames

/-- The names of a project in which those of the given test sets are taken. -/
def of (pattern : String) (taken : List String) : TemporaryNames :=
  { stem := Text.trim pattern, taken }

def candidate (names : TemporaryNames) (number : Nat) : String := s!"{names.stem} {number}"

/-- The first number from `next` on whose name is free. -/
def freeNumber (names : TemporaryNames) : Nat :=
  ((List.range' names.next (names.taken.length + 1)).find? fun number =>
    names.candidate number ∉ names.taken).getD names.next

/-- The next name, and the names with it taken. A stem that no name can begin with is a fault. -/
def draw (names : TemporaryNames) : Except NameFault TestSetName × TemporaryNames :=
  let number := names.freeNumber
  let text := names.candidate number
  (Name.parse text, { names with taken := text :: names.taken, next := number + 1 })

end TemporaryNames

end GuardedRun
