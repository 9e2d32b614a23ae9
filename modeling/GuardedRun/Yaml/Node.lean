import GuardedRun.Settings.Document
import GuardedRun.Yaml.Scalar

/-!
YAML nodes as settings are read from them. A plain scalar is text, number or flag as the reader
wants it; a quoted one is always text. A place left empty holds an empty plain scalar.
-/

namespace GuardedRun.Yaml

inductive Node
  | scalar (text : String) (plain : Bool)
  | sequence (items : List Node)
  | mapping (entries : List (Node × Node))
  deriving Repr, Inhabited

namespace Node

def empty : Node := .scalar "" true

def isEmpty : Node → Bool
  | .scalar "" true => true
  | _ => false

def plain? : Node → Option String
  | .scalar text true => some text
  | _ => none

def keyText? : Node → Option String
  | .scalar text _ => some text
  | _ => none

/-- The entries with their keys as texts; every key has to be a scalar. -/
def textEntries? : List (Node × Node) → Option (List (String × Node))
  | [] => some []
  | (key, value) :: rest => do
    let text ← keyText? key
    let others ← textEntries? rest
    return (text, value) :: others

/-- The value of a key, which may be given at most once. -/
def unique? (entries : List (String × Node)) (key : String) : Option (Option Node) :=
  match entries.filter (·.1 = key) with
  | [] => some none
  | [(_, value)] => some (some value)
  | _ => none

end Node

/-- The natural number that a plain scalar spells: decimal without leading zeros, or hexadecimal,
octal or binary behind `0x`, `0o` or `0b`; a plus sign may go first. -/
def natural? (text : String) : Option Nat :=
  let s := match text.toList with
    | '+' :: rest => rest
    | s => s
  match s with
  | '0' :: 'x' :: rest => number? 16 rest
  | '0' :: 'o' :: rest => number? 8 rest
  | '0' :: 'b' :: rest => number? 2 rest
  | ['0'] => some 0
  | '0' :: _ => none
  | s => number? 10 s

def flag? (text : String) : Option Bool :=
  if text ∈ ["true", "True", "TRUE"] then some true
  else if text ∈ ["false", "False", "FALSE"] then some false
  else none

def isNull (text : String) : Bool := text ∈ ["", "~", "null", "Null", "NULL"]

instance : Document Node where
  text? := Node.keyText?
  flag? node := node.plain? >>= flag?
  natural? node := node.plain? >>= natural?
  isNull node := node.plain?.any isNull
  items?
    | .sequence items => some items
    | node => if node.isEmpty then some [] else none
  fields? keys
    | .mapping entries => do keys.mapM ((← Node.textEntries? entries) |> Node.unique?)
    | node => if node.isEmpty then some (keys.map fun _ => none) else none

end GuardedRun.Yaml
