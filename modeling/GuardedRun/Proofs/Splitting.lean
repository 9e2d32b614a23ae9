import GuardedRun.Text.Blank
import Mathlib.Data.List.Basic

/-! The parts of a text between separators. A part is known by what stands around it, so that it need not
be said how a text is split. -/

namespace GuardedRun.Text

theorem splitOn_eq (sep : Char) (s : List Char) : splitOn sep s = s.splitOn sep := by
  induction s with
  | nil => simp [splitOn]
  | cons c rest ih =>
    rw [List.splitOn_cons_eq_if_modifyHead, splitOn, ih]
    by_cases hc : c = sep
    · simp [hc]
    · cases h : rest.splitOn sep with
      | nil => exact absurd h (List.splitOn_ne_nil sep rest)
      | cons part parts => simp [hc]

/-- A separator divides the parts into those before it and those after it. -/
theorem splitOn_append (sep : Char) (a b : List Char) :
    splitOn sep (a ++ sep :: b) = splitOn sep a ++ splitOn sep b := by
  simp only [splitOn_eq, List.splitOn_append_cons_self]

theorem splitOn_of_not_mem {sep : Char} {s : List Char} (h : sep ∉ s) : splitOn sep s = [s] := by
  rw [splitOn_eq, List.splitOn_eq_singleton h]

theorem splitOn_intercalate {sep : Char} {parts : List (List Char)} (hparts : ∀ part ∈ parts, sep ∉ part)
    (hne : parts ≠ []) : splitOn sep (List.intercalate [sep] parts) = parts := by
  rw [splitOn_eq, List.splitOn_intercalate sep hparts hne]

/-- Parts with a separator behind each of them; what is behind the last separator is empty. -/
theorem splitOn_flatMap {sep : Char} {parts : List (List Char)} (h : ∀ part ∈ parts, sep ∉ part) :
    splitOn sep (parts.flatMap fun part => part ++ [sep]) = parts ++ [[]] := by
  induction parts with
  | nil => rfl
  | cons part rest ih =>
    obtain ⟨hpart, hrest⟩ := List.forall_mem_cons.mp h
    have hparts : (part :: rest).flatMap (fun part => part ++ [sep]) =
        part ++ sep :: rest.flatMap fun part => part ++ [sep] := by simp
    rw [hparts, splitOn_append, splitOn_of_not_mem hpart, ih hrest, List.singleton_append, List.cons_append]

/-- A piece of a text without separators, between two of them or between one and an end. -/
def IsPart (sep : Char) (s part : List Char) : Prop :=
  sep ∉ part ∧ ∃ before after, s = before ++ part ++ after ∧
    (before = [] ∨ before.getLast? = some sep) ∧ (after = [] ∨ after.head? = some sep)

theorem mem_splitOn_append {sep : Char} {part after : List Char} (hpart : sep ∉ part)
    (hafter : after = [] ∨ after.head? = some sep) : part ∈ splitOn sep (part ++ after) := by
  rcases hafter with rfl | hafter
  · simp [splitOn_of_not_mem hpart]
  · obtain ⟨rest, rfl⟩ := List.head?_eq_some_iff.mp hafter
    simp [splitOn_append, splitOn_of_not_mem hpart]

theorem IsPart.behind {sep : Char} {a b part : List Char} (h : IsPart sep b part) :
    IsPart sep (a ++ sep :: b) part := by
  obtain ⟨hpart, before, after, rfl, hbefore, hafter⟩ := h
  refine ⟨hpart, a ++ sep :: before, after, by simp, .inr ?_, hafter⟩
  rcases hbefore with rfl | hbefore
  · simp
  · rw [List.getLast?_append, List.getLast?_cons, hbefore]
    rfl

theorem mem_splitOn {sep : Char} {s part : List Char} : part ∈ splitOn sep s ↔ IsPart sep s part := by
  constructor
  · -- by the text behind the first separator
    induction hn : s.length using Nat.strongRecOn generalizing s with
    | _ n ih =>
      intro hmem
      by_cases hs : sep ∈ s
      · obtain ⟨a, b, rfl, ha⟩ := List.eq_append_cons_of_mem hs
        rw [splitOn_append, splitOn_of_not_mem ha, List.singleton_append, List.mem_cons] at hmem
        rcases hmem with rfl | hmem
        · exact ⟨ha, [], sep :: b, by simp, .inl rfl, .inr rfl⟩
        · have hless : b.length < n := by
            rw [← hn, List.length_append, List.length_cons]
            omega
          exact (ih b.length hless rfl hmem).behind
      · rw [splitOn_of_not_mem hs, List.mem_singleton] at hmem
        subst hmem
        exact ⟨hs, [], [], by simp, .inl rfl, .inl rfl⟩
  · rintro ⟨hpart, before, after, rfl, hbefore, hafter⟩
    have hmem := mem_splitOn_append hpart hafter
    rcases hbefore with rfl | hbefore
    · simpa using hmem
    · obtain ⟨a, rfl⟩ := List.getLast?_eq_some_iff.mp hbefore
      rw [List.append_assoc, List.append_assoc, List.singleton_append, splitOn_append]
      exact List.mem_append_right _ hmem

end GuardedRun.Text
