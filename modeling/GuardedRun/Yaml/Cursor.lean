/-!
Places in the text of a YAML document, and the spacing between what stands there. A line ends with a
line break; every other character takes up one column.
-/

namespace GuardedRun.Yaml

def isBlank (c : Char) : Bool := c = ' ' || c = '\t'

/-- The character ends a line. -/
def isBreak (c : Char) : Bool := c = '\n' || c.toNat = 0x2028 || c.toNat = 0x2029

def isSpacing (c : Char) : Bool := isBlank c || isBreak c

/-- Spacing follows, or nothing at all. -/
def endsWord : List Char → Bool
  | [] => true
  | c :: _ => isSpacing c

/-- A place in a text: how many characters lie before it, in which line and column it is, and what
follows. -/
structure Cursor where
  index : Nat := 0
  line : Nat := 0
  column : Nat := 0
  rest : List Char
  deriving Repr, DecidableEq

namespace Cursor

/-- The place behind a number of characters. -/
def drop : Nat → Cursor → Cursor
  | 0, c => c
  | _ + 1, { rest := [], index, line, column } => { rest := [], index, line, column }
  | n + 1, { rest := ch :: rest, index, line, column } =>
    if isBreak ch then drop n { index := index + 1, line := line + 1, column := 0, rest }
    else drop n { index := index + 1, line, column := column + 1, rest }

/-- The place where the given rest of the text begins. -/
def upTo (rest : List Char) (c : Cursor) : Cursor := c.drop (c.rest.length - rest.length)

def skipWhile (p : Char → Bool) (c : Cursor) : Cursor := c.drop (c.rest.takeWhile p).length

/-- The spacing that follows. -/
def spacing (c : Cursor) : List Char := c.rest.takeWhile isSpacing

/-- A line that begins or ends a document. -/
def atMark (c : Cursor) : Bool :=
  c.column = 0 &&
    match c.rest with
    | '-' :: '-' :: '-' :: rest => endsWord rest
    | '.' :: '.' :: '.' :: rest => endsWord rest
    | _ => false

/-- Goes over spacing and comments to what comes next, and says whether that is on another line.
Tabs are passed over where they do not indent: always inside a flow collection, else only in a line
where something stands that a key cannot follow. -/
def skipGap (flow : Bool) : (bound : Nat) → (tabs crossed : Bool) → Cursor → Cursor × Bool
  | 0, _, crossed, c => (c, crossed)
  | bound + 1, tabs, crossed, c =>
    let c := c.skipWhile fun ch => ch = ' ' || (tabs && ch = '\t')
    let c := match c.rest with
      | '#' :: _ => c.skipWhile fun ch => !isBreak ch
      | _ => c
    match c.rest with
    | ch :: _ => if isBreak ch then skipGap flow bound flow true (c.drop 1) else (c, crossed)
    | [] => (c, crossed)

def gap (flow tabs : Bool) (c : Cursor) : Cursor × Bool :=
  c.skipGap flow (c.rest.length + 1) tabs false

end Cursor

end GuardedRun.Yaml
