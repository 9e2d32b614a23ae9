import GuardedRun.Json.Basic

/-!
Looking into JSON values: a value of an expected kind, or the value of that kind stored under a key.
What is missing, null, or of another kind is not found.
-/

namespace GuardedRun.Json

def text? : Json → Option String
  | .str s => some s
  | _ => none

def flag? : Json → Option Bool
  | .bool b => some b
  | _ => none

def int? : Json → Option Int
  | .int n => some n
  | _ => none

def natural? : Json → Option Nat
  | .int (.ofNat n) => some n
  | _ => none

def items? : Json → Option (List Json)
  | .arr items => some items
  | _ => none

/-- The texts of a list that holds nothing else. -/
def texts? : List Json → Option (List String)
  | [] => some []
  | .str s :: rest => (texts? rest).map (s :: ·)
  | _ => none

/-- A member that is there and not null. -/
def member? (key : String) (j : Json) : Option Json :=
  match j.get? key with
  | some .null => none
  | found => found

def textAt? (key : String) (j : Json) : Option String := j.get? key >>= text?

def flagAt? (key : String) (j : Json) : Option Bool := j.get? key >>= flag?

def naturalAt? (key : String) (j : Json) : Option Nat := j.get? key >>= natural?

def textsAt? (key : String) (j : Json) : Option (List String) := j.get? key >>= items? >>= texts?

/-- A text, or null in its place. -/
def optionalTextAt? (key : String) (j : Json) : Option (Option String) :=
  match j.get? key with
  | some (.str s) => some (some s)
  | some .null => some none
  | _ => none

/-- A flag that is down where it is not given. -/
def flagAt (key : String) (j : Json) : Bool := (flagAt? key j).getD false

/-- A list that is empty where it is not given. -/
def itemsAt (key : String) (j : Json) : List Json := (j.get? key >>= items?).getD []

/-- The texts of a list that is empty where it is not given. -/
def textsAt (key : String) (j : Json) : List String := (itemsAt key j).filterMap text?

theorem texts?_map (texts : List String) : texts? (texts.map .str) = some texts := by
  induction texts with
  | nil => rfl
  | cons t rest ih => simp [texts?, ih]

/-- The entries of a list inside a value are no larger than the value. -/
theorem sizeOf_itemsAt_le (key : String) (j : Json) : sizeOf (itemsAt key j) ≤ sizeOf j := by
  unfold itemsAt
  cases h : j.get? key with
  | none => cases j <;> simp
  | some v =>
    cases j with
    | obj members =>
      have hv := sizeOf_lt_of_lookup h
      cases v with
      | arr items =>
        simp only [arr.sizeOf_spec] at hv
        simp only [Option.bind_eq_bind, Option.bind_some, items?, Option.getD_some, obj.sizeOf_spec]
        omega
      | _ => simp [items?]
    | _ => cases h

end GuardedRun.Json
