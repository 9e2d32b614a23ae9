import GuardedRun.Text.Blank

/-!
Names of the engine's objects. A name is the identity of an object across calls: two handles with
the same name refer to the same object even when their ids differ.
-/

namespace GuardedRun

/-- What keeps a text from being a name. -/
inductive NameFault
  | empty
  | padded
  | controlCharacter
  deriving DecidableEq, Repr

/-- The message for a fault in a name of the labelled kind. -/
def NameFault.message (label : String) : NameFault → String
  | .empty => label ++ " must be non-empty"
  | .padded => label ++ " must not start or end with whitespace"
  | .controlCharacter => label ++ " must not contain control characters"

/-- The first fault of a text, if it has one: emptiness, then blanks at the ends, then control
characters inside. -/
def nameFault? (text : String) : Option NameFault :=
  if text.isEmpty then some .empty
  else if Text.trim text ≠ text then some .padded
  else if text.toList.any Text.isControl then some .controlCharacter
  else none

inductive NameKind
  | scenario
  | testSet
  | configuration
  deriving DecidableEq, Repr

def NameKind.label : NameKind → String
  | .scenario => "scenario name"
  | .testSet => "test set name"
  | .configuration => "execution configuration name"

/-- A name of an object of one kind; only texts without a fault are names. -/
structure Name (kind : NameKind) where
  text : String
  valid : nameFault? text = none
  deriving DecidableEq, Repr

namespace Name

variable {kind : NameKind}

@[ext] theorem ext {a b : Name kind} (h : a.text = b.text) : a = b := by
  cases a; cases b; simp_all

def parse (text : String) : Except NameFault (Name kind) :=
  match h : nameFault? text with
  | none => .ok ⟨text, h⟩
  | some fault => .error fault

instance : ToString (Name kind) := ⟨text⟩

theorem parse_text (name : Name kind) : (parse name.text : Except NameFault (Name kind)) = .ok name := by
  unfold parse
  split
  · rfl
  · next fault h => exact absurd (name.valid.symm.trans h) (by simp)

theorem parse_eq_ok_iff {text : String} {name : Name kind} :
    parse text = .ok name ↔ text = name.text := by
  constructor
  · intro h
    unfold parse at h
    split at h
    · cases h; rfl
    · cases h
  · rintro rfl; exact parse_text name

end Name

abbrev ScenarioName := Name .scenario
abbrev TestSetName := Name .testSet
abbrev ConfigName := Name .configuration

end GuardedRun
