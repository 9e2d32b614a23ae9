import GuardedRun.Yaml.Cursor

/-!
Scalars of YAML: plain ones, which end where something else begins, and quoted ones. A line break
inside a scalar becomes a blank, and of several breaks in a row the first is dropped.
-/

namespace GuardedRun.Yaml

/-- What a stretch of spacing inside a scalar turns into. A break that is a character of its own is
kept. -/
def foldSpacing (spacing : List Char) : List Char :=
  match spacing.filter isBreak with
  | [] => spacing
  | ['\n'] => [' ']
  | '\n' :: more => more
  | breaks => breaks

/-- In spacing that begins at a column, a tab lies before the least column of a line that begins
there. -/
def tabIndents (least : Nat) : (crossed : Bool) → (column : Nat) → List Char → Bool
  | _, _, [] => false
  | crossed, column, c :: rest =>
    if isBreak c then tabIndents least true 0 rest
    else (crossed && c = '\t' && column < least) || tabIndents least crossed (column + 1) rest

/-- The text of a scalar, the place behind it, and whether that is in a line of its own. -/
structure Scanned where
  text : List Char
  after : Cursor
  crossed : Bool := false
  deriving Repr, DecidableEq

def isFlowIndicator (c : Char) : Bool := c ∈ [',', '[', ']', '{', '}']

/-- The part of a plain scalar up to the next spacing. In a flow collection a colon cannot stand
directly before one of its indicators or a question mark. -/
def plainWord? (flow : Bool) : List Char → Option (List Char × List Char)
  | [] => some ([], [])
  | c :: rest =>
    if isSpacing c then some ([], c :: rest)
    else if c = ':' && endsWord rest then some ([], c :: rest)
    else if flow && c = ':' && rest.head?.any fun d => isFlowIndicator d || d = '?' then none
    else if flow && isFlowIndicator c then some ([], c :: rest)
    else do
      let (word, rest) ← plainWord? flow rest
      return (c :: word, rest)

/-- Reads the words of a plain scalar behind the first one, and the spacing behind the last. Outside
of flow collections it goes on in the next line only if that one is indented as far as the least
column. -/
def plainTail? (flow : Bool) (least : Nat) : (bound : Nat) → (read : List Char) → Cursor →
    Option Scanned
  | 0, _, _ => none
  | bound + 1, read, c =>
    let spacing := c.spacing
    let next := c.drop spacing.length
    let ended : Scanned := { text := read, after := next, crossed := spacing.any isBreak }
    if tabIndents least false c.column spacing then none
    else if spacing.isEmpty || (!flow && next.column < least) || next.atMark ||
        next.rest.head? = some '#' then some ended
    else do
      let (word, rest) ← plainWord? flow next.rest
      if word.isEmpty then return ended
      plainTail? flow least bound (read ++ foldSpacing spacing ++ word) (next.upTo rest)

/-- A character with a meaning of its own at the beginning of a node. -/
def isIndicator (c : Char) : Bool :=
  isFlowIndicator c || c ∈ ['#', '&', '*', '!', '|', '>', '\'', '"', '%', '@', Char.ofNat 0x60]

/-- A plain scalar can begin with the character. -/
def beginsPlain (flow : Bool) (c : Char) (rest : List Char) : Bool :=
  if isSpacing c then false
  else if c = '-' then !endsWord rest
  else if c = '?' || c = ':' then !flow && !endsWord rest
  else !isIndicator c

def plain? (flow : Bool) (least : Nat) (c : Cursor) : Option Scanned :=
  match c.rest with
  | [] => none
  | first :: rest =>
    if beginsPlain flow first rest then do
      let (word, rest) ← plainWord? flow c.rest
      plainTail? flow least (c.rest.length + 1) word (c.upTo rest)
    else none

/-- A scalar in single quotes, from behind the opening one; a quote inside is written twice. -/
def singleQuoted? : (bound : Nat) → (read : List Char) → Cursor → Option Scanned
  | 0, _, _ => none
  | bound + 1, read, c =>
    if c.atMark then none
    else
      match c.rest with
      | [] => none
      | '\'' :: '\'' :: _ => singleQuoted? bound (read ++ ['\'']) (c.drop 2)
      | '\'' :: _ => some { text := read, after := c.drop 1 }
      | ch :: _ =>
        if isSpacing ch then
          singleQuoted? bound (read ++ foldSpacing c.spacing) (c.drop c.spacing.length)
        else singleQuoted? bound (read ++ [ch]) (c.drop 1)

/-- The character of a one-letter escape. -/
def escape? : Char → Option Char
  | '0' => some (Char.ofNat 0x00)
  | 'a' => some (Char.ofNat 0x07)
  | 'b' => some (Char.ofNat 0x08)
  | 't' => some '\t'
  | '\t' => some '\t'
  | 'n' => some '\n'
  | 'v' => some (Char.ofNat 0x0b)
  | 'f' => some (Char.ofNat 0x0c)
  | 'r' => some '\r'
  | 'e' => some (Char.ofNat 0x1b)
  | ' ' => some ' '
  | '"' => some '"'
  | '/' => some '/'
  | '\\' => some '\\'
  | 'N' => some (Char.ofNat 0x85)
  | '_' => some (Char.ofNat 0xa0)
  | 'L' => some (Char.ofNat 0x2028)
  | 'P' => some (Char.ofNat 0x2029)
  | _ => none

/-- How many hexadecimal digits follow the letter of an escape. -/
def escapeWidth? : Char → Option Nat
  | 'x' => some 2
  | 'u' => some 4
  | 'U' => some 8
  | _ => none

def charOfCode? (n : Nat) : Option Char :=
  if n < 0xd800 ∨ (0xdfff < n ∧ n < 0x110000) then some (Char.ofNat n) else none

/-- The digit that a character stands for in a base up to 16. -/
def digit? (base : Nat) (c : Char) : Option Nat :=
  let value :=
    if '0' ≤ c ∧ c ≤ '9' then some (c.toNat - '0'.toNat)
    else if 'a' ≤ c ∧ c ≤ 'f' then some (c.toNat - 'a'.toNat + 10)
    else if 'A' ≤ c ∧ c ≤ 'F' then some (c.toNat - 'A'.toNat + 10)
    else none
  value.filter (· < base)

def digitsFrom? (base : Nat) : Nat → List Char → Option Nat
  | n, [] => some n
  | n, c :: rest => do digitsFrom? base (base * n + (← digit? base c)) rest

def number? (base : Nat) : List Char → Option Nat
  | [] => none
  | digits => digitsFrom? base 0 digits

/-- The character that an escape stands for, from its letter on, and how long the escape is. -/
def escaped? : List Char → Option (Char × Nat)
  | [] => none
  | letter :: rest =>
    match escapeWidth? letter with
    | some width => do
      let digits := rest.take width
      if digits.length ≠ width then none
      return (← charOfCode? (← number? 16 digits), width + 1)
    | none => (escape? letter).map (·, 1)

/-- A scalar in double quotes, from behind the opening one. -/
def doubleQuoted? : (bound : Nat) → (read : List Char) → Cursor → Option Scanned
  | 0, _, _ => none
  | bound + 1, read, c =>
    if c.atMark then none
    else
      match c.rest with
      | [] => none
      | '"' :: _ => some { text := read, after := c.drop 1 }
      | '\\' :: rest =>
        if rest.head?.any isBreak then
          -- an escaped break is dropped, and so is the indentation behind it
          let next := c.drop 2
          doubleQuoted? bound (read ++ next.spacing.filter isBreak) (next.drop next.spacing.length)
        else do
          let (ch, length) ← escaped? rest
          doubleQuoted? bound (read ++ [ch]) (c.drop (length + 1))
      | ch :: _ =>
        if isSpacing ch then
          doubleQuoted? bound (read ++ foldSpacing c.spacing) (c.drop c.spacing.length)
        else doubleQuoted? bound (read ++ [ch]) (c.drop 1)

end GuardedRun.Yaml
