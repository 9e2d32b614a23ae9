import GuardedRun.Yaml.Node
import GuardedRun.Yaml.Token

/-!
Reading a YAML document made of block and flow mappings and sequences, plain and quoted scalars,
comments and document marks. That is not all of YAML: a document with block scalars, anchors, tags or
directives is not read. The tokens are put together to nodes; every step of that takes a token
or goes into a collection, which bounds the number of steps.
-/

namespace GuardedRun.Yaml

mutual

/-- The node that begins here. `block` says that it may be a block collection; `atKey` says that it
may be a sequence whose items are not indented below the key. -/
def node? : (bound : Nat) → (block atKey : Bool) → List Token → Option (Node × List Token)
  | 0, _, _, _ => none
  | bound + 1, block, atKey, tokens =>
    match tokens with
    | .scalar text plain :: rest => some (.scalar text plain, rest)
    | .openSequence :: rest =>
      (flowItems? bound rest).map fun (items, rest) => (.sequence items, rest)
    | .openMapping :: rest =>
      (flowEntries? bound rest).map fun (entries, rest) => (.mapping entries, rest)
    | .beginSequence :: rest =>
      if block then (blockItems? bound rest).map fun (items, rest) => (.sequence items, rest)
      else none
    | .beginMapping :: rest =>
      if block then (blockEntries? bound rest).map fun (entries, rest) => (.mapping entries, rest)
      else none
    | .item :: _ =>
      if atKey then (itemsAtKey? bound tokens).map fun (items, rest) => (.sequence items, rest)
      else none
    | _ => none

/-- A node, or an empty one where a token that ends its place comes first. -/
def nodeOrEmpty? : (bound : Nat) → (block atKey : Bool) → (ends : List Token) → List Token →
    Option (Node × List Token)
  | 0, _, _, _, _ => none
  | bound + 1, block, atKey, ends, tokens =>
    if tokens.head?.any (· ∈ ends) then some (.empty, tokens) else node? bound block atKey tokens

/-- What the value of a key is, if there is one. -/
def valueOrEmpty? : (bound : Nat) → (block : Bool) → (ends : List Token) → List Token →
    Option (Node × List Token)
  | 0, _, _, _ => none
  | bound + 1, block, ends, tokens =>
    match tokens with
    | .value :: rest => nodeOrEmpty? bound block block ends rest
    | _ => some (.empty, tokens)

def blockItems? : (bound : Nat) → List Token → Option (List Node × List Token)
  | 0, _ => none
  | bound + 1, tokens =>
    match tokens with
    | .endBlock :: rest => some ([], rest)
    | .item :: rest => do
      let (first, rest) ← nodeOrEmpty? bound true false [.item, .endBlock] rest
      let (others, rest) ← blockItems? bound rest
      return (first :: others, rest)
    | _ => none

/-- The items of a sequence that ends with the value it is. -/
def itemsAtKey? : (bound : Nat) → List Token → Option (List Node × List Token)
  | 0, _ => none
  | bound + 1, tokens =>
    match tokens with
    | .item :: rest => do
      let (first, rest) ← nodeOrEmpty? bound true false [.item, .key, .value, .endBlock] rest
      let (others, rest) ← itemsAtKey? bound rest
      return (first :: others, rest)
    | _ => some ([], tokens)

def blockEntries? : (bound : Nat) → List Token → Option (List (Node × Node) × List Token)
  | 0, _ => none
  | bound + 1, tokens =>
    match tokens with
    | .endBlock :: rest => some ([], rest)
    | .key :: rest => do
      let ends : List Token := [.key, .value, .endBlock]
      let (key, rest) ← nodeOrEmpty? bound true true ends rest
      let (value, rest) ← valueOrEmpty? bound true ends rest
      let (others, rest) ← blockEntries? bound rest
      return ((key, value) :: others, rest)
    | _ => none

/-- The items of a flow sequence from behind its bracket or a comma. A key stands for a mapping of
one entry. -/
def flowItems? : (bound : Nat) → List Token → Option (List Node × List Token)
  | 0, _ => none
  | bound + 1, tokens =>
    match tokens with
    | .closeSequence :: rest => some ([], rest)
    | _ => do
      let (first, rest) ← match tokens with
        | .key :: rest => do
          let (key, rest) ← match rest with
            -- an announced key that is left out takes the indicator behind it along
            | .value :: rest => pure (.empty, rest)
            | .comma :: rest => pure (.empty, rest)
            | .closeSequence :: rest => pure (.empty, rest)
            | _ => node? bound false false rest
          let (value, rest) ← valueOrEmpty? bound false [.comma, .closeSequence] rest
          pure (.mapping [(key, value)], rest)
        | _ => node? bound false false tokens
      match rest with
      | .closeSequence :: rest => return ([first], rest)
      | .comma :: rest =>
        let (others, rest) ← flowItems? bound rest
        return (first :: others, rest)
      | _ => none

/-- The entries of a flow mapping from behind its brace or a comma. A node that is no key has an
empty value. -/
def flowEntries? : (bound : Nat) → List Token → Option (List (Node × Node) × List Token)
  | 0, _ => none
  | bound + 1, tokens =>
    match tokens with
    | .closeMapping :: rest => some ([], rest)
    | _ => do
      let (first, rest) ← match tokens with
        | .key :: rest => do
          let (key, rest) ← nodeOrEmpty? bound false false [.value, .comma, .closeMapping] rest
          let (value, rest) ← valueOrEmpty? bound false [.comma, .closeMapping] rest
          pure ((key, value), rest)
        | _ => do
          let (key, rest) ← node? bound false false tokens
          pure ((key, .empty), rest)
      match rest with
      | .closeMapping :: rest => return ([first], rest)
      | .comma :: rest =>
        let (others, rest) ← flowEntries? bound rest
        return (first :: others, rest)
      | _ => none

end

/-- The one document that tokens make up. A mark that opens it may be left out, one that ends it may
follow any number of times; without any token the document is an empty node. -/
def Node.ofTokens? (tokens : List Token) : Option Node := do
  let bound := 4 * tokens.length + 4
  let (node, rest) ← match tokens with
    | [] => some (.empty, [])
    | .documentStart :: [] => some (.empty, [])
    | .documentStart :: rest => nodeOrEmpty? bound true false [.documentStart, .documentEnd] rest
    | _ => node? bound true false tokens
  if rest.all (· = .documentEnd) then some node else none

/-- A character that may stand in a document. -/
def isPrintable (c : Char) : Bool :=
  let n := c.toNat
  n = 0x09 || n = 0x0a || n = 0x0d || (0x20 ≤ n && n ≤ 0x7e) || n = 0x85 ||
    (0xa0 ≤ n && n ≤ 0xd7ff) || (0xe000 ≤ n && n ≤ 0xfffd) || 0x10000 ≤ n

/-- The text with one kind of line break, apart from those that are characters of their own. -/
def unifyBreaks : List Char → List Char
  | [] => []
  | '\r' :: '\n' :: rest => '\n' :: unifyBreaks rest
  | c :: rest => (if c = '\r' || c.toNat = 0x85 then '\n' else c) :: unifyBreaks rest

/-- Reads a text as one document. -/
def parse (text : String) : Option Node := do
  let s := text.toList
  if s.all isPrintable then Node.ofTokens? (← tokens? (unifyBreaks s)) else none

end GuardedRun.Yaml
