import GuardedRun.Path
import GuardedRun.Proofs.Splitting

/-! Components of paths. A slash divides a path's components into those before it and those after it, so
that spellings which differ in nothing else between them mean one place. -/

namespace GuardedRun

namespace Path

/-- The components that follow a slash. -/
def componentsBehind (s : List Char) : List Component :=
  (Text.splitOn '/' s).filterMap segmentComponent?

theorem componentsBehind_slash (s : List Char) :
    componentsBehind ('/' :: s) = componentsBehind s := by
  have hsplit : Text.splitOn '/' ('/' :: s) = [] :: Text.splitOn '/' s := by simp [Text.splitOn]
  rw [componentsBehind, hsplit]
  rfl

theorem componentsBehind_dot (s : List Char) :
    componentsBehind ('.' :: '/' :: s) = componentsBehind s := by
  have hsplit : Text.splitOn '/' ('.' :: '/' :: s) = ['.'] :: Text.splitOn '/' s := by
    simp [Text.splitOn]
  rw [componentsBehind, hsplit]
  rfl

theorem componentsBehind_nil : componentsBehind [] = [] := rfl

/-- What stands behind a slash adds its components to those before it. -/
theorem componentsOf_append {a : List Char} (ha : a ≠ []) (b : List Char) :
    componentsOf (a ++ '/' :: b) = componentsOf a ++ componentsBehind b := by
  obtain ⟨c, rest, rfl⟩ := List.exists_cons_of_ne_nil ha
  have hsplit := Text.splitOn_append '/' (c :: rest) b
  obtain ⟨part, parts, hparts⟩ := List.exists_cons_of_ne_nil (Text.splitOn_ne_nil '/' (c :: rest))
  rw [hparts] at hsplit
  rw [List.cons_append] at hsplit ⊢
  have hall : (part :: (parts ++ Text.splitOn '/' b)).filterMap segmentComponent? =
      (part :: parts).filterMap segmentComponent? ++ componentsBehind b := by
    rw [← List.cons_append, List.filterMap_append, componentsBehind]
  rw [componentsOf.eq_def, componentsOf.eq_def, hsplit, hparts, List.cons_append]
  -- the first character and the first segment are the same on both sides
  by_cases hc : c = '/'
  · subst hc
    simp [hall]
  · by_cases hpart : part = ['.']
    · subst hpart
      simp [componentsBehind, hc]
    · simp [hall, hc, hpart]

theorem componentsOf_slash (b : List Char) : componentsOf ('/' :: b) = .root :: componentsBehind b := by
  rw [← componentsBehind_slash]
  rfl

/-- Where a slash stands, it may stand twice. -/
theorem componentsOf_double_slash (a b : List Char) :
    componentsOf (a ++ '/' :: '/' :: b) = componentsOf (a ++ '/' :: b) := by
  cases a with
  | nil => rw [List.nil_append, List.nil_append, componentsOf_slash, componentsOf_slash,
      componentsBehind_slash]
  | cons c rest =>
    rw [componentsOf_append (List.cons_ne_nil c rest), componentsOf_append (List.cons_ne_nil c rest),
      componentsBehind_slash]

/-- A dot between two slashes stands for nothing. -/
theorem componentsOf_inner_dot (a b : List Char) :
    componentsOf (a ++ '/' :: '.' :: '/' :: b) = componentsOf (a ++ '/' :: b) := by
  cases a with
  | nil => rw [List.nil_append, List.nil_append, componentsOf_slash, componentsOf_slash,
      componentsBehind_dot]
  | cons c rest =>
    rw [componentsOf_append (List.cons_ne_nil c rest), componentsOf_append (List.cons_ne_nil c rest),
      componentsBehind_dot]

/-- A slash at the end stands for nothing, unless it is all there is. -/
theorem componentsOf_trailing_slash {a : List Char} (ha : a ≠ []) :
    componentsOf (a ++ ['/']) = componentsOf a := by
  rw [componentsOf_append ha, componentsBehind_nil, List.append_nil]

/-- The same path once more, with one slash or dot that says nothing. -/
inductive Respelled : Path → Path → Prop
  | doubled (a b : List Char) :
    Respelled ⟨String.ofList (a ++ '/' :: '/' :: b)⟩ ⟨String.ofList (a ++ '/' :: b)⟩
  | dotted (a b : List Char) :
    Respelled ⟨String.ofList (a ++ '/' :: '.' :: '/' :: b)⟩ ⟨String.ofList (a ++ '/' :: b)⟩
  | trailed (a : List Char) (ha : a ≠ []) :
    Respelled ⟨String.ofList (a ++ ['/'])⟩ ⟨String.ofList a⟩

theorem Respelled.same {p q : Path} (h : Respelled p q) : p.same q := by
  rw [same_iff]
  cases h with
  | doubled a b => simpa [components] using componentsOf_double_slash a b
  | dotted a b => simpa [components] using componentsOf_inner_dot a b
  | trailed a ha => simpa [components] using componentsOf_trailing_slash ha

end Path

end GuardedRun
