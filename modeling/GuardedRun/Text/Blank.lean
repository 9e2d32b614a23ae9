/-!
Blank and control characters. Names are judged by them, and a text of blanks alone counts as
empty wherever a setting or a message has to say something.
-/

namespace GuardedRun.Text

/-- The characters with the Unicode property White_Space. -/
def isBlank (c : Char) : Bool :=
  let n := c.toNat
  (0x09 ≤ n && n ≤ 0x0d) || n == 0x20 || n == 0x85 || n == 0xa0 || n == 0x1680 ||
    (0x2000 ≤ n && n ≤ 0x200a) || n == 0x2028 || n == 0x2029 || n == 0x202f ||
    n == 0x205f || n == 0x3000

/-- The characters of the Unicode category Cc. -/
def isControl (c : Char) : Bool :=
  let n := c.toNat
  n < 0x20 || (0x7f ≤ n && n ≤ 0x9f)

/-- The text without the blanks it starts and ends with. -/
def trimChars (s : List Char) : List Char :=
  ((s.dropWhile isBlank).reverse.dropWhile isBlank).reverse

def trim (s : String) : String := String.ofList (trimChars s.toList)

/-- Nothing is left after trimming. -/
def isBlankText (s : String) : Bool := s.toList.all isBlank

/-- The parts of a text between the separators; one more than there are separators. -/
def splitOn (sep : Char) : List Char → List (List Char)
  | [] => [[]]
  | c :: rest =>
    if c = sep then [] :: splitOn sep rest
    else
      match splitOn sep rest with
      | [] => [[c]]
      | part :: parts => (c :: part) :: parts

theorem splitOn_ne_nil (sep : Char) (s : List Char) : splitOn sep s ≠ [] := by
  cases s with
  | nil => simp [splitOn]
  | cons c rest =>
    simp only [splitOn]
    split
    · simp
    · split <;> simp

/-- Writing the separator between the parts gives the text back. -/
theorem intercalate_splitOn (sep : Char) (s : List Char) :
    List.intercalate [sep] (splitOn sep s) = s := by
  induction s with
  | nil => rfl
  | cons c rest ih =>
    have hne := splitOn_ne_nil sep rest
    simp only [splitOn]
    cases hp : splitOn sep rest with
    | nil => exact absurd hp hne
    | cons part parts =>
      rw [hp] at ih
      split
      · rename_i h
        subst h
        rw [← ih]
        simp [List.intercalate]
      · rw [← ih]
        cases parts <;> simp [List.intercalate]

end GuardedRun.Text
