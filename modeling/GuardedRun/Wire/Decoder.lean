import GuardedRun.Json.Basic
import GuardedRun.Name

/-!
Decoders of the values that the engine sends. A record is written as an object or as the array of
its fields in their order; an object may hold members nobody asked for, an array may only lack
fields at its end. The first fault found is the one reported, and a missing field is noticed after
the fields that are there.
-/

namespace GuardedRun.Wire

inductive Fault
  /-- The value has another shape than the one described. -/
  | malformed (expected : String)
  /-- A text stands where a name has to stand. -/
  | name (kind : NameKind) (raw : String) (fault : NameFault)
  deriving DecidableEq, Repr

def Fault.message : Fault → String
  | .malformed expected => "expected " ++ expected
  | .name kind raw fault =>
    "invalid " ++ kind.label ++ " `" ++ raw ++ "`: " ++ fault.message kind.label

abbrev Decoder (α : Type) := Json → Except Fault α

def text : Decoder String
  | .str s => .ok s
  | _ => .error (.malformed "a string")

def flag : Decoder Bool
  | .bool b => .ok b
  | _ => .error (.malformed "a boolean")

/-- A natural number of 64 bits. -/
def natural : Decoder Nat
  | .int (.ofNat n) => if n < UInt64.size then .ok n else .error (.malformed "a number of 64 bits")
  | _ => .error (.malformed "a natural number")

def nothing : Decoder Unit
  | .null => .ok ()
  | _ => .error (.malformed "null")

def name (kind : NameKind) : Decoder (Name kind) := fun j => do
  let raw ← text j
  match Name.parse raw with
  | .ok name => .ok name
  | .error fault => .error (.name kind raw fault)

variable {α β : Type}

/-- A value or null. -/
def optional (decode : Decoder α) : Decoder (Option α)
  | .null => .ok none
  | j => (decode j).map some

def each (decode : Decoder α) : List Json → Except Fault (List α)
  | [] => .ok []
  | j :: rest => do
    let a ← decode j
    let as ← each decode rest
    return a :: as

def list (decode : Decoder α) : Decoder (List α)
  | .arr items => each decode items
  | _ => .error (.malformed "an array")

/-- A field of a record. One without a default has to be there. -/
structure Field (α : Type) where
  key : String
  decode : Decoder α
  default? : Option α := none

namespace Field

def read (field : Field α) : Option Json → Except Fault (Option α)
  | none => .ok field.default?
  | some j => (field.decode j).map some

def require (field : Field α) : Option α → Except Fault α
  | some a => .ok a
  | none => .error (.malformed ("a field " ++ field.key))

end Field

/-- A record of one field. -/
def record₁ (f : Field α) : Decoder α
  | .obj members => do
    let a ← f.read (Json.lookup f.key members)
    f.require a
  | .arr items => do
    let a ← f.read items[0]?
    let a ← f.require a
    if items.length ≤ 1 then return a else .error (.malformed "one field")
  | _ => .error (.malformed "a record")

/-- A record of two fields. -/
def record₂ (f : Field α) (g : Field β) : Decoder (α × β)
  | .obj members => do
    let a ← f.read (Json.lookup f.key members)
    let b ← g.read (Json.lookup g.key members)
    return (← f.require a, ← g.require b)
  | .arr items => do
    let a ← f.read items[0]?
    let b ← g.read items[1]?
    let a ← f.require a
    let b ← g.require b
    if items.length ≤ 2 then return (a, b) else .error (.malformed "two fields")
  | _ => .error (.malformed "a record")

end GuardedRun.Wire
