import GuardedRun.Name

/-!
Finite sets of names, kept in ascending order of their texts and without repetition, so that two
sets of the same names are equal and messages list names in one order.
-/

namespace GuardedRun

variable {kind : NameKind}

namespace NameSet

/-- Puts a name at its place among ascending ones, unless it is there. -/
def insertInto (name : Name kind) : List (Name kind) → List (Name kind)
  | [] => [name]
  | first :: rest =>
    if name.text < first.text then name :: first :: rest
    else if name = first then first :: rest
    else first :: insertInto name rest

theorem mem_insertInto {name other : Name kind} {names : List (Name kind)} :
    other ∈ insertInto name names ↔ other = name ∨ other ∈ names := by
  induction names with
  | nil => simp [insertInto]
  | cons first rest ih =>
    simp only [insertInto]
    split
    · simp
    · split
      · next h => subst h; simp
      · simp only [List.mem_cons, ih]
        exact or_left_comm

theorem pairwise_insertInto {name : Name kind} {names : List (Name kind)}
    (h : names.Pairwise (·.text < ·.text)) :
    (insertInto name names).Pairwise (·.text < ·.text) := by
  induction names with
  | nil => simp [insertInto]
  | cons first rest ih =>
    obtain ⟨hfirst, hrest⟩ := List.pairwise_cons.1 h
    simp only [insertInto]
    split
    · next hlt =>
      refine List.pairwise_cons.2 ⟨?_, h⟩
      intro other hother
      rcases List.mem_cons.1 hother with rfl | hother
      · exact hlt
      · exact String.lt_trans hlt (hfirst other hother)
    · next hnlt =>
      split
      · exact h
      · next hne =>
        refine List.pairwise_cons.2 ⟨?_, ih hrest⟩
        intro other hother
        rcases mem_insertInto.1 hother with rfl | hother
        · rcases Std.lt_trichotomy first.text other.text with hlt | heq | hgt
          · exact hlt
          · exact absurd (Name.ext heq.symm) hne
          · exact absurd hgt hnlt
        · exact hfirst other hother

end NameSet

structure NameSet (kind : NameKind) where
  names : List (Name kind)
  ascending : names.Pairwise (·.text < ·.text)
  deriving DecidableEq, Repr

namespace NameSet

def empty : NameSet kind := ⟨[], .nil⟩

def insert (name : Name kind) (set : NameSet kind) : NameSet kind :=
  ⟨insertInto name set.names, pairwise_insertInto set.ascending⟩

def ofList (names : List (Name kind)) : NameSet kind := names.foldl (fun set name => set.insert name) empty

def isEmpty (set : NameSet kind) : Bool := set.names.isEmpty

def size (set : NameSet kind) : Nat := set.names.length

instance : Membership (Name kind) (NameSet kind) := ⟨fun set name => name ∈ set.names⟩

instance (name : Name kind) (set : NameSet kind) : Decidable (name ∈ set) :=
  inferInstanceAs (Decidable (name ∈ set.names))

@[simp] theorem not_mem_empty (name : Name kind) : name ∉ (empty : NameSet kind) :=
  List.not_mem_nil

@[simp] theorem mem_insert {name other : Name kind} {set : NameSet kind} :
    other ∈ set.insert name ↔ other = name ∨ other ∈ set := mem_insertInto

theorem mem_foldl_insert {names : List (Name kind)} {set : NameSet kind} {name : Name kind} :
    name ∈ names.foldl (fun set name => set.insert name) set ↔ name ∈ names ∨ name ∈ set := by
  induction names generalizing set with
  | nil => simp
  | cons first rest ih =>
    simp only [List.foldl_cons, ih, mem_insert, List.mem_cons]
    constructor
    · rintro (h | h | h)
      · exact Or.inl (Or.inr h)
      · exact Or.inl (Or.inl h)
      · exact Or.inr h
    · rintro ((h | h) | h)
      · exact Or.inr (Or.inl h)
      · exact Or.inl h
      · exact Or.inr (Or.inr h)

@[simp] theorem mem_ofList {names : List (Name kind)} {name : Name kind} :
    name ∈ ofList names ↔ name ∈ names := by
  simp [ofList, mem_foldl_insert]

end NameSet

end GuardedRun
