import GuardedRun.Text.Blank

/-!
Paths of files and directories, on this machine and on the engine's. A path is printed as it was
given; two paths mean the same place when their components agree, so that doubled slashes, inner
dots and a trailing slash are immaterial while `..` is kept.
-/

namespace GuardedRun

structure Path where
  text : String
  deriving DecidableEq, Repr

namespace Path

instance : ToString Path := ⟨text⟩

inductive Component
  | root
  | here
  | up
  | name (text : List Char)
  deriving DecidableEq, Repr

/-- The component a segment stands for; an empty segment and a dot stand for none. -/
def segmentComponent? : List Char → Option Component
  | [] => none
  | ['.'] => none
  | ['.', '.'] => some .up
  | segment => some (.name segment)

/-- The components of a path's characters. A dot counts only where it opens a relative path. -/
def componentsOf (s : List Char) : List Component :=
  match s, Text.splitOn '/' s with
  | '/' :: _, segments => .root :: segments.filterMap segmentComponent?
  | _, ['.'] :: segments => .here :: segments.filterMap segmentComponent?
  | _, segments => segments.filterMap segmentComponent?

def components (p : Path) : List Component := componentsOf p.text.toList

/-- Both paths have the same components. -/
def same (p q : Path) : Bool := p.components == q.components

def isAbsolute (p : Path) : Bool := p.text.toList.head? == some '/'

/-- The characters of `q` seen from `p`; an absolute `q` stands alone. -/
def joinChars (p q : List Char) : List Char :=
  if q.head? = some '/' then q
  else
    match p.getLast? with
    | none => q
    | some '/' => p ++ q
    | some _ => p ++ '/' :: q

def join (p q : Path) : Path := ⟨String.ofList (joinChars p.text.toList q.text.toList)⟩

instance : Div Path := ⟨join⟩

def Component.chars : Component → List Char
  | .root => ['/']
  | .here => ['.']
  | .up => ['.', '.']
  | .name text => text

/-- The shortest spelling of a list of components. -/
def charsOfComponents (cs : List Component) : List Char :=
  cs.foldl (fun p c => joinChars p c.chars) []

def ofComponents (cs : List Component) : Path := ⟨String.ofList (charsOfComponents cs)⟩

/-- The place a path names as seen from a working directory. An absolute path is kept as it was
given, because the engine prints it back. -/
def resolve (workingDirectory raw : Path) : Path :=
  if raw.isAbsolute then raw else ofComponents (workingDirectory / raw).components

/-- The place a path names as seen from a working directory that may be unknown. Only a relative path
asks for it. -/
def place (workingDirectory : Except String Path) (raw : Path) : Except String Path :=
  if raw.isAbsolute then .ok raw else workingDirectory.map (resolve · raw)

theorem same_iff {p q : Path} : p.same q ↔ p.components = q.components := by
  simp [same]

@[simp] theorem same_refl (p : Path) : p.same p := by simp [same]

end Path

end GuardedRun
