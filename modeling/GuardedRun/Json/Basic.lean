/-!
JSON values as the engine exchanges them. Whole numbers are kept apart from numbers written with a
fraction or an exponent, because no field of the wire format takes the latter.
-/

namespace GuardedRun

inductive Json
  | null
  | bool (value : Bool)
  | int (value : Int)
  /-- A number that is not a whole one of 64 bits, in the spelling it came in. -/
  | real (literal : String)
  | str (value : String)
  | arr (items : List Json)
  /-- Members with pairwise distinct keys. -/
  | obj (members : List (String × Json))
  deriving Repr, Inhabited

namespace Json

/-- The value stored under a key. -/
def lookup (key : String) : List (String × Json) → Option Json
  | [] => none
  | (k, v) :: rest => if k = key then some v else lookup key rest

def get? (key : String) : Json → Option Json
  | .obj members => lookup key members
  | _ => none

/-- Stores a value under a key; a value stored there before is given up. -/
def put (key : String) (value : Json) (members : List (String × Json)) : List (String × Json) :=
  members.filter (·.1 ≠ key) ++ [(key, value)]

def nat (n : Nat) : Json := .int n

def strings (items : List String) : Json := .arr (items.map .str)

/-- A value or null in its absence. -/
def ofOption {α : Type} (f : α → Json) : Option α → Json
  | none => .null
  | some a => f a

theorem lookup_append (key : String) (a b : List (String × Json)) :
    lookup key (a ++ b) = (lookup key a).or (lookup key b) := by
  induction a with
  | nil => rfl
  | cons p a ih =>
    obtain ⟨k, v⟩ := p
    simp only [List.cons_append, lookup]
    split
    · rfl
    · exact ih

theorem lookup_filter_ne (key : String) (members : List (String × Json)) :
    lookup key (members.filter (·.1 ≠ key)) = none := by
  induction members with
  | nil => rfl
  | cons p rest ih =>
    obtain ⟨k, v⟩ := p
    by_cases h : k = key
    · simpa [h] using ih
    · simpa [h, lookup] using ih

theorem lookup_put (key : String) (value : Json) (members : List (String × Json)) :
    lookup key (put key value members) = some value := by
  rw [put, lookup_append, lookup_filter_ne]
  simp [lookup]

/-- A member is smaller than the list that holds it, which lets a reader descend into it. -/
theorem sizeOf_lt_of_lookup {key : String} {members : List (String × Json)} {v : Json}
    (h : lookup key members = some v) : sizeOf v < sizeOf members := by
  induction members with
  | nil => cases h
  | cons p rest ih =>
    obtain ⟨k, w⟩ := p
    simp only [lookup] at h
    split at h
    · cases h
      simp only [List.cons.sizeOf_spec, Prod.mk.sizeOf_spec]
      omega
    · have := ih h
      simp only [List.cons.sizeOf_spec]
      omega

end Json

end GuardedRun
