import GuardedRun.Json.Member

/-!
Documents that settings can be read from. What a text, a flag or a number looks like is the
document's affair; which fields there are is the settings'.
-/

namespace GuardedRun

class Document (ν : Type) where
  text? : ν → Option String
  flag? : ν → Option Bool
  natural? : ν → Option Nat
  /-- The document gives no value here, where one may be left out. -/
  isNull : ν → Bool
  items? : ν → Option (List ν)
  /-- The values that a record gives to its fields. A field given twice cannot be read. -/
  fields? : (keys : List String) → ν → Option (List (Option ν))

namespace Document

variable {ν : Type} [Document ν]

/-- A value below a bound. -/
def below? (bound : Nat) (d : ν) : Option Nat := do
  let n ← natural? d
  if n < bound then some n else none

def word16? (d : ν) : Option UInt16 := (below? UInt16.size d).map UInt16.ofNat

def word64? (d : ν) : Option UInt64 := (below? UInt64.size d).map UInt64.ofNat

def optional? {α : Type} (read : ν → Option α) (d : ν) : Option (Option α) :=
  if isNull d then some none else (read d).map some

def each? {α : Type} (read : ν → Option α) : List ν → Option (List α)
  | [] => some []
  | d :: rest => do
    let a ← read d
    let as ← each? read rest
    return a :: as

def list? {α : Type} (read : ν → Option α) (d : ν) : Option (List α) := items? d >>= each? read

/-- The value of a field, which has a default. -/
def orDefault {α : Type} (default : α) (read : ν → Option α) : Option ν → Option α
  | none => some default
  | some d => read d

end Document

namespace Json

/-- The fields of an array, as far as it goes. -/
def positions? : List String → List Json → Option (List (Option Json))
  | [], [] => some []
  | [], _ :: _ => none
  | _ :: keys, [] => (positions? keys []).map (none :: ·)
  | _ :: keys, j :: rest => (positions? keys rest).map (some j :: ·)

instance : Document Json where
  text? := text?
  flag? := flag?
  natural? := natural?
  isNull
    | .null => true
    | _ => false
  items? := items?
  fields? keys
    | .obj members => some (keys.map (lookup · members))
    | .arr items => positions? keys items
    | _ => none

end Json

end GuardedRun
