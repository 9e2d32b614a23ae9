import GuardedRun.Yaml.Scalar

/-!
The tokens of a YAML document: its scalars and indicators, and where block collections begin and end
by indentation. That something is a key shows only at the colon behind it, which has to follow in
the same line; the token in front of the key is put in there. What lies in the column of the
innermost block collection has to be a key, or else an item.
-/

namespace GuardedRun.Yaml

inductive Token
  | scalar (text : String) (plain : Bool)
  | openSequence
  | closeSequence
  | openMapping
  | closeMapping
  | comma
  /-- A block collection begins. -/
  | beginSequence
  | beginMapping
  /-- The innermost block collection ends. -/
  | endBlock
  | item
  | key
  | value
  | documentStart
  | documentEnd
  deriving DecidableEq, Repr

/-- A place where a key may have begun. -/
structure KeyPlace where
  /-- How many tokens there were before it. -/
  tokens : Nat
  index : Nat
  line : Nat
  column : Nat
  /-- Nothing but a key can stand there. -/
  required : Bool
  deriving DecidableEq, Repr

structure Lexer where
  cursor : Cursor
  tokens : List Token := []
  /-- The columns of the open block collections, from the innermost one out. -/
  columns : List Nat := []
  /-- Where the key of a colon that comes next would have begun. -/
  place : Option KeyPlace := none
  /-- The same for what is around each open flow collection, from the innermost one out. -/
  outer : List (Option KeyPlace) := []
  /-- What comes next may be a key. -/
  mayKey : Bool := true
  deriving Repr

namespace Lexer

/-- The place is inside a flow collection. -/
def inFlow (l : Lexer) : Bool := !l.outer.isEmpty

/-- The least column at which the content of the innermost block collection may lie. -/
def least (l : Lexer) : Nat :=
  match l.columns with
  | [] => 0
  | column :: _ => column + 1

def emit (token : Token) (l : Lexer) : Lexer := { l with tokens := l.tokens ++ [token] }

/-- Puts a token in behind a number of tokens. -/
def insert (count : Nat) (token : Token) (l : Lexer) : Lexer :=
  { l with tokens := l.tokens.take count ++ token :: l.tokens.drop count }

/-- Goes over a number of characters that make up a token. -/
def take (length : Nat) (token : Token) (l : Lexer) : Lexer :=
  { l.emit token with cursor := l.cursor.drop length }

/-- Goes on to what comes next. In a line of its own it may be a key. -/
def skipGap (l : Lexer) : Lexer :=
  let (cursor, crossed) := l.cursor.gap l.inFlow (l.inFlow || !l.mayKey)
  { l with cursor, mayKey := l.mayKey || (crossed && !l.inFlow) }

/-- How far a key may reach, up to its colon. -/
def keyReach : Nat := 1024

/-- The place is near enough for a colon here to make a key of what begins there. -/
def inReach (l : Lexer) (p : KeyPlace) : Bool :=
  p.line = l.cursor.line && l.cursor.index ≤ p.index + keyReach

/-- Gives up the place of a key, unless one is required there. -/
def dropKey? (l : Lexer) : Option Lexer :=
  if l.place.any (·.required) then none else some { l with place := none }

/-- Gives up a key that lies too far back. -/
def expireKey? (l : Lexer) : Option Lexer := if l.place.all l.inReach then some l else l.dropKey?

/-- Remembers this place as the beginning of a key, if it may be one. -/
def markKey? (l : Lexer) : Option Lexer :=
  if l.mayKey then do
    let l ← l.dropKey?
    let { index, line, column, .. } := l.cursor
    let required := !l.inFlow && l.columns.head? = some column
    return { l with place := some { tokens := l.tokens.length, index, line, column, required } }
  else some l

/-- Begins a block collection at a column, unless one of that column or a deeper one is open. -/
def openBlock (column count : Nat) (token : Token) (l : Lexer) : Lexer :=
  if l.inFlow || column < l.least then l
  else { l.insert count token with columns := column :: l.columns }

/-- Ends the block collections that fulfil a condition on their columns. -/
def closeBlocks (p : Nat → Bool) (l : Lexer) : Lexer :=
  if l.inFlow then l
  else
    let closed := l.columns.takeWhile p
    { l with
      columns := l.columns.drop closed.length
      tokens := l.tokens ++ closed.map fun _ => .endBlock }

def openFlow? (token : Token) (l : Lexer) : Option Lexer := do
  let l ← l.markKey?
  return { l.take 1 token with place := none, outer := l.place :: l.outer, mayKey := true }

def closeFlow? (token : Token) (l : Lexer) : Option Lexer := do
  let l ← l.dropKey?
  match l.outer with
  | [] => none
  | place :: outer => return { l.take 1 token with place, outer, mayKey := false }

def comma? (l : Lexer) : Option Lexer := do
  return { (← l.dropKey?).take 1 .comma with mayKey := true }

/-- A mark between documents ends everything in the one before. -/
def mark? (token : Token) (l : Lexer) : Option Lexer := do
  return { ((← l.dropKey?).closeBlocks fun _ => true).take 3 token with mayKey := false }

def item? (l : Lexer) : Option Lexer :=
  if l.inFlow || l.mayKey then do
    let l ← (l.openBlock l.cursor.column l.tokens.length .beginSequence).dropKey?
    return { l.take 1 .item with mayKey := true }
  else none

/-- A key that is announced by an indicator of its own. -/
def key? (l : Lexer) : Option Lexer :=
  if l.inFlow || l.mayKey then do
    let l ← (l.openBlock l.cursor.column l.tokens.length .beginMapping).dropKey?
    return { l.take 1 .key with mayKey := !l.inFlow }
  else none

/-- A colon makes a key of what lies before it, or else follows a key that was announced. -/
def value? (l : Lexer) : Option Lexer :=
  match l.place with
  | some p =>
    let l := (l.insert p.tokens .key).openBlock p.column p.tokens .beginMapping
    some { l.take 1 .value with place := none, mayKey := false }
  | none =>
    if l.inFlow || l.mayKey then
      let l := l.openBlock l.cursor.column l.tokens.length .beginMapping
      some { l.take 1 .value with mayKey := !l.inFlow }
    else none

def scalar? (l : Lexer) : Option Lexer := do
  let bound := l.cursor.rest.length + 1
  let (scanned, plain) ← match l.cursor.rest with
    | '\'' :: _ => (singleQuoted? bound [] (l.cursor.drop 1)).map (·, false)
    | '"' :: _ => (doubleQuoted? bound [] (l.cursor.drop 1)).map (·, false)
    | _ => (plain? l.inFlow l.least l.cursor).map (·, true)
  return { (← l.markKey?).emit (.scalar (String.ofList scanned.text) plain) with
    cursor := scanned.after, mayKey := scanned.crossed }

/-- Reads the token that begins here. Directives, anchors, tags and block scalars are refused. -/
def next? (l : Lexer) : Option Lexer :=
  match l.cursor.rest with
  | [] => none
  | c :: rest =>
    if l.cursor.atMark then l.mark? (if c = '-' then .documentStart else .documentEnd)
    else if c = '-' && endsWord rest then l.item?
    else if c = '?' && (l.inFlow || endsWord rest) then l.key?
    else if c = ':' && (l.inFlow || endsWord rest) then l.value?
    else
      match c with
      | '[' => l.openFlow? .openSequence
      | '{' => l.openFlow? .openMapping
      | ']' => l.closeFlow? .closeSequence
      | '}' => l.closeFlow? .closeMapping
      | ',' => l.comma?
      | _ => l.scalar?

/-- Reads tokens to the end of the text; every token takes a character. -/
def run? : (bound : Nat) → Lexer → Option (List Token)
  | 0, _ => none
  | bound + 1, l => do
    let l ← l.skipGap.expireKey?
    if l.cursor.rest.isEmpty then return ((← l.dropKey?).closeBlocks fun _ => true).tokens
    else run? bound (← (l.closeBlocks (l.cursor.column < ·)).next?)

end Lexer

/-- The tokens of a text with one kind of line break. A byte order mark in front is passed over, but
takes up a column. -/
def tokens? (s : List Char) : Option (List Token) :=
  let start : Cursor := { rest := s }
  let cursor := if s.head?.any (·.toNat = 0xfeff) then start.drop 1 else start
  Lexer.run? (s.length + 1) { cursor }

end GuardedRun.Yaml
