import GuardedRun.Json.Source

/-!
JSON that comes as bytes. The grammar asks for single bytes only, so that a text is first read with one
character for each byte. What the bytes of a string spell in UTF-8 is a question of its own, and one
that nobody asks of a string in a member that is skipped.
-/

namespace GuardedRun.Json

/-- What a run of bytes in a string spells. Where it spells nothing, the bytes stand by themselves. -/
def runUnits (bytes : List UInt8) : List StringUnit :=
  match String.fromUTF8? ⟨bytes.toArray⟩ with
  | some text => text.toList.map .char
  | none => bytes.map .stray

/-- The units of a string whose characters stand for bytes, behind a run of bytes of which the last comes
first. An escape ends the run. -/
def decodeUnits (run : List UInt8) : List StringUnit → List StringUnit
  | [] => runUnits run.reverse
  | .char c :: rest => decodeUnits (c.toNat.toUInt8 :: run) rest
  | unit :: rest => runUnits run.reverse ++ unit :: decodeUnits [] rest

namespace Source

mutual

/-- The source with strings of characters in the place of strings of bytes. -/
def decode : Source → Source
  | .string units => .string (decodeUnits [] units)
  | .array items => .array (decodeItems items)
  | .object members => .object (decodeMembers members)
  | s => s

def decodeItems : List Source → List Source
  | [] => []
  | item :: rest => decode item :: decodeItems rest

def decodeMembers : List (List StringUnit × Source) → List (List StringUnit × Source)
  | [] => []
  | (key, source) :: rest => (decodeUnits [] key, decode source) :: decodeMembers rest

end

/-- The reading of bytes as one value. -/
def ofBytes (bytes : List UInt8) : Option Source :=
  (parse (String.ofList (bytes.map fun b => Char.ofNat b.toNat))).map decode

end Source

end GuardedRun.Json
