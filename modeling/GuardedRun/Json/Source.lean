import GuardedRun.Json.Basic

/-!
JSON text. Reading is done in two steps: `Source.parse` checks the grammar and keeps what the text
says (repeated keys, spellings of numbers, escapes that name no character), and `Source.value?`
turns a part of it into a value. A reader that skips a member never takes the second step on it,
so an unusable value does no harm where nobody looks at it.
-/

namespace GuardedRun.Json

/-- A unit of a string: a character, the number given by a four-digit escape, or a byte that is part of no
character. -/
inductive StringUnit
  | char (c : Char)
  | code (n : Nat)
  | stray (byte : UInt8)
  deriving Repr, DecidableEq

/-- A number as it is spelled. -/
structure Numeral where
  negative : Bool
  whole : List Char
  fraction : Option (List Char)
  exponent : Option Int
  literal : List Char
  deriving Repr, DecidableEq

inductive Source
  | null
  | bool (value : Bool)
  | number (numeral : Numeral)
  | string (units : List StringUnit)
  | array (items : List Source)
  | object (members : List (List StringUnit × Source))
  deriving Repr, Inhabited

def isSpace (c : Char) : Bool := c = ' ' || c = '\t' || c = '\n' || c = '\r'

def skipSpace (s : List Char) : List Char := s.dropWhile isSpace

def hexValue? (c : Char) : Option Nat :=
  if '0' ≤ c ∧ c ≤ '9' then some (c.toNat - '0'.toNat)
  else if 'a' ≤ c ∧ c ≤ 'f' then some (c.toNat - 'a'.toNat + 10)
  else if 'A' ≤ c ∧ c ≤ 'F' then some (c.toNat - 'A'.toNat + 10)
  else none

def hex4? (a b c d : Char) : Option Nat := do
  let a ← hexValue? a
  let b ← hexValue? b
  let c ← hexValue? c
  let d ← hexValue? d
  return ((a * 16 + b) * 16 + c) * 16 + d

/-- The character a one-letter escape stands for. -/
def escaped? : Char → Option Char
  | '"' => some '"'
  | '\\' => some '\\'
  | '/' => some '/'
  | 'b' => some (Char.ofNat 0x08)
  | 'f' => some (Char.ofNat 0x0c)
  | 'n' => some '\n'
  | 'r' => some '\r'
  | 't' => some '\t'
  | _ => none

/-- Reads a string from behind its opening quote up to and over the closing one. -/
def scanString : List Char → Option (List StringUnit × List Char)
  | [] => none
  | '"' :: rest => some ([], rest)
  | '\\' :: 'u' :: a :: b :: c :: d :: rest => do
    let n ← hex4? a b c d
    let (units, rest) ← scanString rest
    return (.code n :: units, rest)
  | '\\' :: e :: rest => do
    let c ← escaped? e
    let (units, rest) ← scanString rest
    return (.char c :: units, rest)
  | c :: rest =>
    if c.toNat < 0x20 then none
    else do
      let (units, rest) ← scanString rest
      return (.char c :: units, rest)

def isHighSurrogate (n : Nat) : Bool := 0xd800 ≤ n && n < 0xdc00

def isLowSurrogate (n : Nat) : Bool := 0xdc00 ≤ n && n < 0xe000

/-- The characters of a string. A high surrogate has to be followed by a low one, and a low one
has to follow a high one. -/
def unitChars? : List StringUnit → Option (List Char)
  | [] => some []
  | .char c :: rest => (unitChars? rest).map (c :: ·)
  | .code n :: rest =>
    if isHighSurrogate n then
      match rest with
      | .code m :: rest =>
        if isLowSurrogate m then
          (unitChars? rest).map (Char.ofNat (0x10000 + (n - 0xd800) * 0x400 + (m - 0xdc00)) :: ·)
        else none
      | _ => none
    else if isLowSurrogate n then none
    else (unitChars? rest).map (Char.ofNat n :: ·)
  | .stray _ :: _ => none

def unitText? (units : List StringUnit) : Option String := (unitChars? units).map String.ofList

def natOfDigits (digits : List Char) : Nat :=
  digits.foldl (fun n c => 10 * n + (c.toNat - '0'.toNat)) 0

/-- The digits a text starts with, and what follows them. -/
def spanDigits (s : List Char) : List Char × List Char :=
  (s.takeWhile Char.isDigit, s.dropWhile Char.isDigit)

/-- One digit or more, and what follows. -/
def digits1? (s : List Char) : Option (List Char × List Char) :=
  match spanDigits s with
  | ([], _) => none
  | found => some found

def scanFraction (s : List Char) : Option (Option (List Char) × List Char) :=
  match s with
  | '.' :: rest => (digits1? rest).map fun (digits, rest) => (some digits, rest)
  | _ => some (none, s)

def scanExponent (s : List Char) : Option (Option Int × List Char) :=
  match s with
  | c :: rest =>
    if c = 'e' ∨ c = 'E' then
      match rest with
      | '-' :: rest => (digits1? rest).map fun (digits, rest) => (some (-natOfDigits digits), rest)
      | '+' :: rest => (digits1? rest).map fun (digits, rest) => (some (natOfDigits digits), rest)
      | _ => (digits1? rest).map fun (digits, rest) => (some (natOfDigits digits), rest)
    else some (none, s)
  | [] => some (none, s)

/-- Reads a number. Its whole part has no leading zeros. -/
def scanNumber (s : List Char) : Option (Numeral × List Char) := do
  let (negative, unsigned) := match s with
    | '-' :: rest => (true, rest)
    | _ => (false, s)
  let (whole, rest) ← digits1? unsigned
  if whole.head? = some '0' ∧ whole.length ≠ 1 then none
  let (fraction, rest) ← scanFraction rest
  let (exponent, rest) ← scanExponent rest
  return ({ negative, whole, fraction, exponent, literal := s.take (s.length - rest.length) }, rest)

/-- Reads items up to a closing character; the opening one and the blanks behind it are gone. Each
item takes at least one character, so the number of characters bounds the number of items. -/
def scanItems {α : Type} (item : List Char → Option (α × List Char)) (close : Char) :
    Nat → List Char → Option (List α × List Char)
  | 0, _ => none
  | bound + 1, s => do
    let (first, rest) ← item s
    match skipSpace rest with
    | c :: rest =>
      if c = ',' then
        let (others, rest) ← scanItems item close bound rest
        return (first :: others, rest)
      else if c = close then return ([first], rest)
      else none
    | [] => none

/-- Reads a possibly empty list of items from behind its opening character. -/
def scanList {α : Type} (item : List Char → Option (α × List Char)) (close : Char)
    (s : List Char) : Option (List α × List Char) :=
  match skipSpace s with
  | c :: rest => if c = close then some ([], rest) else scanItems item close (s.length + 1) (c :: rest)
  | [] => none

/-- Reads a member of an object with the given reader of values. -/
def scanMember (value : List Char → Option (Source × List Char)) (s : List Char) :
    Option ((List StringUnit × Source) × List Char) :=
  match skipSpace s with
  | '"' :: rest => do
    let (key, rest) ← scanString rest
    match skipSpace rest with
    | ':' :: rest =>
      let (v, rest) ← value rest
      return ((key, v), rest)
    | _ => none
  | _ => none

/-- Reads a value with at most the given number of values around one another. -/
def scanValue : Nat → List Char → Option (Source × List Char)
  | 0, _ => none
  | depth + 1, s =>
    match skipSpace s with
    | 'n' :: 'u' :: 'l' :: 'l' :: rest => some (.null, rest)
    | 't' :: 'r' :: 'u' :: 'e' :: rest => some (.bool true, rest)
    | 'f' :: 'a' :: 'l' :: 's' :: 'e' :: rest => some (.bool false, rest)
    | '"' :: rest => (scanString rest).map fun (units, rest) => (.string units, rest)
    | '[' :: rest =>
      (scanList (scanValue depth) ']' rest).map fun (items, rest) => (.array items, rest)
    | '{' :: rest =>
      (scanList (scanMember (scanValue depth)) '}' rest).map fun (members, rest) =>
        (.object members, rest)
    | s => (scanNumber s).map fun (numeral, rest) => (.number numeral, rest)

/-- The reading of a whole text as one value; nesting is bounded by the text's own length. -/
def Source.parse (text : String) : Option Source :=
  let s := text.toList
  match scanValue (s.length + 1) s with
  | some (source, rest) => if skipSpace rest = [] then some source else none
  | none => none

/-- The least number that is too large for a 64-bit floating point number, rounding included. -/
def overflowLimit : Nat := (Nat.pow 2 54 - 1) * Nat.pow 2 970

/-- The 64-bit floating point number nearest to a whole one, and of two that are as near the even one. -/
def nearestDouble (n : Nat) : Nat :=
  let unit := Nat.pow 2 (n.log2 - 52)
  let below := n / unit
  let beyond := n % unit
  if 2 * beyond < unit ∨ 2 * beyond = unit ∧ below % 2 = 0 then below * unit else (below + 1) * unit

/-- Appends digits to a number while it stays within 64 bits: the number, and how many were appended. -/
def appendDigits (n : Nat) : List Char → Nat × Nat
  | [] => (n, 0)
  | c :: rest =>
    let longer := 10 * n + (c.toNat - '0'.toNat)
    if longer < UInt64.size then
      let (number, appended) := appendDigits longer rest
      (number, appended + 1)
    else (n, 0)

/-- The leading digits as a number of 64 bits, and the power of ten it is to be multiplied by. Digits of
the whole part that are left out count for the power, those of the fraction do not. -/
def Numeral.scaled (n : Numeral) : Nat × Int :=
  let (whole, kept) := appendDigits 0 n.whole
  let (significand, places) := appendDigits whole (n.fraction.getD [])
  (significand, n.exponent.getD 0 + n.whole.length - kept - places)

/-- The number can be computed in 64-bit floating point: both factors are rounded, and their product must
not be too large. No other power of ten than these has a factor of its own. -/
def Numeral.isFinite (n : Numeral) : Bool :=
  let (significand, power) := n.scaled
  if significand = 0 ∨ power < 0 then true
  else if 308 < power then false
  else nearestDouble significand * nearestDouble (Nat.pow 10 power.toNat) < overflowLimit

/-- A whole number of 64 bits, signed or unsigned, is an integer; any other number has to be
finite. A negative zero has no integer to stand for it. -/
def Numeral.value? (n : Numeral) : Option Json :=
  let size := natOfDigits n.whole
  if n.fraction.isNone ∧ n.exponent.isNone ∧ ¬ n.negative ∧ size < UInt64.size then some (.int size)
  else if n.fraction.isNone ∧ n.exponent.isNone ∧ n.negative ∧ size ≠ 0 ∧ size ≤ UInt64.size / 2 then
    some (.int (-size))
  else if n.isFinite then some (.real (String.ofList n.literal))
  else none

namespace Source

mutual

/-- The value that a source stands for. Of the values given to one key the last one counts. -/
def value? : Source → Option Json
  | .null => some .null
  | .bool b => some (.bool b)
  | .number n => n.value?
  | .string units => (unitText? units).map .str
  | .array items => (values? items).map .arr
  | .object members => (membersValue? [] members).map .obj

def values? : List Source → Option (List Json)
  | [] => some []
  | item :: rest => do
    let v ← value? item
    let vs ← values? rest
    return v :: vs

def membersValue? (before : List (String × Json)) :
    List (List StringUnit × Source) → Option (List (String × Json))
  | [] => some before
  | (key, source) :: rest => do
    let key ← unitText? key
    let v ← value? source
    membersValue? (put key v before) rest

end

mutual

/-- How many arrays and objects stand around one another. -/
def nesting : Source → Nat
  | .array items => itemsNesting items + 1
  | .object members => membersNesting members + 1
  | _ => 0

def itemsNesting : List Source → Nat
  | [] => 0
  | item :: rest => max (nesting item) (itemsNesting rest)

def membersNesting : List (List StringUnit × Source) → Nat
  | [] => 0
  | (_, source) :: rest => max (nesting source) (membersNesting rest)

end

end Source

/-- Reads a text as one value. -/
def parse (text : String) : Option Json := Source.parse text >>= Source.value?

end GuardedRun.Json
