import GuardedRun.Json.Source
import GuardedRun.Json.Writer
import Mathlib.Data.List.Basic
import Mathlib.Data.List.Nodup
import Mathlib.Tactic.Choose

/-! What is written as JSON is read back, and the text has no line break in it. A string is read back
character by character, a number up to the sign that ends it, and a list or an object by the readings of its
parts. -/

namespace GuardedRun.Json

/-- A text that is read as a unit, which stands for a character. -/
structure Spells (c : Char) (text : List Char) (unit : StringUnit) : Prop where
  scan : ∀ tail, scanString (text ++ tail) =
    (scanString tail).map fun found => (unit :: found.1, found.2)
  stands : ∀ units, unitChars? (unit :: units) = (unitChars? units).map (c :: ·)
  unbroken : '\n' ∉ text

namespace Spells

theorem letter {c e : Char} (he : escaped? e = some c) (hunit : e ≠ 'u') (hbreak : e ≠ '\n') :
    Spells c ['\\', e] (.char c) where
  scan tail := by
    rw [List.cons_append, List.singleton_append, scanString, he]
    · cases scanString tail <;> rfl
    · exact fun _ _ _ _ _ h => absurd h hunit
  stands _ := rfl
  unbroken := by simp [hbreak.symm]

theorem hexDigits : ∀ n : Fin 32, hex4? '0' '0' (hexDigit (n / 16)) (hexDigit (n % 16)) = some n.val ∧
    hexDigit (n / 16) ≠ '\n' ∧ hexDigit (n % 16) ≠ '\n' := by decide

/-- A control character is written by its number, which is not that of one half of a pair. -/
theorem number {c : Char} (h : c.toNat < 0x20) :
    Spells c ['\\', 'u', '0', '0', hexDigit (c.toNat / 16), hexDigit (c.toNat % 16)] (.code c.toNat) where
  scan tail := by
    have hnumber : hex4? '0' '0' (hexDigit (c.toNat / 16)) (hexDigit (c.toNat % 16)) = some c.toNat :=
      (hexDigits ⟨c.toNat, h⟩).1
    simp only [List.cons_append, List.nil_append, scanString, hnumber]
    cases scanString tail <;> rfl
  stands units := by
    have hhigh : isHighSurrogate c.toNat = false := by
      simp [isHighSurrogate]
      omega
    have hlow : isLowSurrogate c.toNat = false := by
      simp [isLowSurrogate]
      omega
    cases units with
    | nil => simp [unitChars?, hhigh, hlow]
    | cons unit rest => cases unit <;> simp [unitChars?, hhigh, hlow]
  unbroken := by
    obtain ⟨-, hfirst, hsecond⟩ := hexDigits ⟨c.toNat, h⟩
    simp [hfirst.symm, hsecond.symm]

theorem plain {c : Char} (hquote : c ≠ '"') (hslash : c ≠ '\\') (h : ¬ c.toNat < 0x20) :
    Spells c [c] (.char c) where
  scan tail := by
    rw [List.singleton_append, scanString, if_neg h]
    · cases scanString tail <;> rfl
    · exact hquote
    · exact fun _ _ _ _ _ hc => absurd hc hslash
    · exact fun _ _ hc => absurd hc hslash
  stands _ := rfl
  unbroken := by
    intro hmem
    have hc : '\n' = c := List.mem_singleton.mp hmem
    exact h (hc ▸ by decide)

end Spells

theorem exists_spells (c : Char) : ∃ unit, Spells c (escapeChar c) unit := by
  unfold escapeChar
  split_ifs with hquote hslash hfeed hreturn htab hback hpage hcontrol
  · exact ⟨_, .letter (by rw [hquote]; rfl) (by decide) (by decide)⟩
  · exact ⟨_, .letter (by rw [hslash]; rfl) (by decide) (by decide)⟩
  · exact ⟨_, .letter (by rw [hfeed]; rfl) (by decide) (by decide)⟩
  · exact ⟨_, .letter (by rw [hreturn]; rfl) (by decide) (by decide)⟩
  · exact ⟨_, .letter (by rw [htab]; rfl) (by decide) (by decide)⟩
  · have hc : c = Char.ofNat 0x08 := by rw [← hback, Char.ofNat_toNat]
    exact ⟨_, .letter (by rw [hc]; rfl) (by decide) (by decide)⟩
  · have hc : c = Char.ofNat 0x0c := by rw [← hpage, Char.ofNat_toNat]
    exact ⟨_, .letter (by rw [hc]; rfl) (by decide) (by decide)⟩
  · exact ⟨_, .number hcontrol⟩
  · exact ⟨_, .plain hquote hslash hcontrol⟩

/-- The reading of a string ends at its own closing quote. -/
theorem scanString_escaped (s : String) : ∃ units, unitText? units = some s ∧
    ∀ tail, scanString (s.toList.flatMap escapeChar ++ '"' :: tail) = some (units, tail) := by
  have hchars (cs : List Char) : ∃ units, unitChars? units = some cs ∧
      ∀ tail, scanString (cs.flatMap escapeChar ++ '"' :: tail) = some (units, tail) := by
    induction cs with
    | nil => exact ⟨[], rfl, fun tail => by rw [List.flatMap_nil, List.nil_append, scanString]⟩
    | cons c rest ih =>
      obtain ⟨unit, hunit⟩ := exists_spells c
      obtain ⟨units, hstands, hscan⟩ := ih
      refine ⟨unit :: units, ?_, fun tail => ?_⟩
      · rw [hunit.stands, hstands, Option.map_some]
      · rw [List.flatMap_cons, List.append_assoc, hunit.scan, hscan, Option.map_some]
  obtain ⟨units, hstands, hscan⟩ := hchars s.toList
  refine ⟨units, ?_, hscan⟩
  rw [unitText?, hstands, Option.map_some, String.ofList_toList]

theorem newline_not_mem_quoted (s : String) : '\n' ∉ quoted s := by
  have hescaped : '\n' ∉ s.toList.flatMap escapeChar := by
    intro hmem
    obtain ⟨c, -, hc⟩ := List.mem_flatMap.mp hmem
    obtain ⟨unit, hunit⟩ := exists_spells c
    exact hunit.unbroken hc
  simp [quoted, hescaped]

/-- What does not begin with a blank stays. -/
theorem skipSpace_cons {c : Char} (h : isSpace c = false) (rest : List Char) :
    skipSpace (c :: rest) = c :: rest := by
  rw [skipSpace, List.dropWhile_cons_of_neg (by simp [h])]

/-- A text in which a value has come to its end: nothing follows, or what stands behind a part of a list. -/
def Ends (tail : List Char) : Prop :=
  ∀ c rest, tail = c :: rest → c = ',' ∨ c = ']' ∨ c = '}'

theorem Ends.nil : Ends [] := by
  intro c rest h
  cases h

theorem Ends.cons {c : Char} {rest : List Char} (h : c = ',' ∨ c = ']' ∨ c = '}') : Ends (c :: rest) := by
  intro c' rest' hparts
  cases hparts
  exact h

section Numbers

variable {digits tail : List Char}

theorem digits1?_append (hdigits : ∀ c ∈ digits, c.isDigit = true) (hne : digits ≠ []) (hends : Ends tail) :
    digits1? (digits ++ tail) = some (digits, tail) := by
  have htail : tail.takeWhile Char.isDigit = [] ∧ tail.dropWhile Char.isDigit = tail := by
    cases tail with
    | nil => exact ⟨rfl, rfl⟩
    | cons c rest => rcases hends c rest rfl with rfl | rfl | rfl <;> exact ⟨rfl, rfl⟩
  have hspan : spanDigits (digits ++ tail) = (digits, tail) := by
    rw [spanDigits, List.takeWhile_append_of_pos hdigits, List.dropWhile_append_of_pos hdigits,
      htail.1, htail.2, List.append_nil]
  rw [digits1?, hspan]
  cases digits with
  | nil => exact absurd rfl hne
  | cons c rest => rfl

theorem scanFraction_ends (hends : Ends tail) : scanFraction tail = some (none, tail) := by
  cases tail with
  | nil => rfl
  | cons c rest => rcases hends c rest rfl with rfl | rfl | rfl <;> rfl

theorem scanExponent_ends (hends : Ends tail) : scanExponent tail = some (none, tail) := by
  cases tail with
  | nil => rfl
  | cons c rest => rcases hends c rest rfl with rfl | rfl | rfl <;> rfl

/-- The digits of a number are all digits, and the first is no zero where there is another. -/
structure Digits (n : Nat) (digits : List Char) : Prop where
  isDigit : ∀ c ∈ digits, c.isDigit = true
  ne_nil : digits ≠ []
  unpadded : ¬ (digits.head? = some '0' ∧ digits.length ≠ 1)
  value : natOfDigits digits = n

theorem eq_zero_of_head?_toDigits {n : Nat} (h : (Nat.toDigits 10 n).head? = some '0') : n = 0 := by
  -- the first digit is that of the quotient, as long as there is one
  induction n using Nat.strongRecOn with
  | ind n ih =>
    rcases Nat.lt_or_ge n 10 with hless | hge
    · rw [Nat.toDigits_of_lt_base hless] at h
      simpa using h
    · have hsame : (Nat.toDigits 10 n).head? = (Nat.toDigits 10 (n / 10)).head? := by
        obtain ⟨c, rest, hparts⟩ := List.exists_cons_of_ne_nil (Nat.toDigits_ne_nil (n := n / 10) (b := 10))
        rw [Nat.toDigits_of_base_le (by decide) hge, hparts, List.cons_append, List.head?_cons, List.head?_cons]
      have hquotient : n / 10 = 0 := ih (n / 10) (by omega) (hsame ▸ h)
      omega

theorem digits_toDigits (n : Nat) : Digits n (Nat.toDigits 10 n) where
  isDigit _ hc := Nat.isDigit_of_mem_toDigits (by decide) (by decide) hc
  ne_nil := Nat.toDigits_ne_nil
  value := Nat.ofDigitChars_ten_toDigits
  unpadded := by
    rintro ⟨hhead, hlong⟩
    rw [eq_zero_of_head?_toDigits hhead, Nat.toDigits_zero] at hlong
    exact hlong rfl

theorem Digits.head_ne {n : Nat} (h : Digits n digits) {c : Char} (hc : c.isDigit = false) (rest : List Char) :
    digits ++ tail ≠ c :: rest := by
  intro heq
  obtain ⟨first, others, hparts⟩ := List.exists_cons_of_ne_nil h.ne_nil
  rw [hparts, List.cons_append] at heq
  have hfirst : first.isDigit = true := h.isDigit first (by simp [hparts])
  simp [(List.cons.inj heq).1, hc] at hfirst

/-- Digits up to the end of a number are its whole part, and there is no other. -/
theorem scanNumber_natural {n : Nat} (h : Digits n digits) (hends : Ends tail) :
    scanNumber (digits ++ tail) = some (⟨false, digits, none, none, digits⟩, tail) := by
  have hliteral : (digits ++ tail).take ((digits ++ tail).length - tail.length) = digits := by
    rw [List.length_append, Nat.add_sub_cancel, List.take_left]
  unfold scanNumber
  split
  next negative unsigned hsign =>
    split at hsign
    · next rest heq => exact absurd heq (h.head_ne (by decide) rest)
    · obtain ⟨rfl, rfl⟩ := Prod.mk.inj hsign
      simp only [digits1?_append h.isDigit h.ne_nil hends, scanFraction_ends hends,
        scanExponent_ends hends, Option.bind_eq_bind, Option.bind_some, if_neg h.unpadded, hliteral]
      rfl

theorem scanNumber_negative {n : Nat} (h : Digits n digits) (hends : Ends tail) :
    scanNumber ('-' :: (digits ++ tail)) = some (⟨true, digits, none, none, '-' :: digits⟩, tail) := by
  have hliteral : ('-' :: (digits ++ tail)).take (('-' :: (digits ++ tail)).length - tail.length) =
      '-' :: digits := by
    rw [← List.cons_append, List.length_append, Nat.add_sub_cancel, List.take_left]
  unfold scanNumber
  simp only [digits1?_append h.isDigit h.ne_nil hends, scanFraction_ends hends,
    scanExponent_ends hends, Option.bind_eq_bind, Option.bind_some, if_neg h.unpadded, hliteral]
  rfl

/-- A whole number of 64 bits, signed or not. -/
def Fits (n : Int) : Prop := -((UInt64.size / 2 : Nat) : Int) ≤ n ∧ n < (UInt64.size : Int)

theorem scanNumber_intChars {n : Int} (hfits : Fits n) : ∃ numeral : Numeral,
    numeral.value? = some (.int n) ∧
      ∀ tail, Ends tail → scanNumber (intChars n ++ tail) = some (numeral, tail) := by
  obtain ⟨hlow, hhigh⟩ := hfits
  cases n with
  | ofNat n =>
    have hdigits := digits_toDigits n
    have hsize : n < UInt64.size := by
      simp only [UInt64.size, Int.ofNat_eq_natCast] at *
      omega
    refine ⟨⟨false, Nat.toDigits 10 n, none, none, Nat.toDigits 10 n⟩, ?_,
      fun tail hends => scanNumber_natural hdigits hends⟩
    simp [Numeral.value?, hdigits.value, hsize]
  | negSucc n =>
    have hdigits := digits_toDigits (n + 1)
    have hsize : n + 1 ≤ UInt64.size / 2 := by
      simp only [UInt64.size] at *
      omega
    refine ⟨⟨true, Nat.toDigits 10 (n + 1), none, none, '-' :: Nat.toDigits 10 (n + 1)⟩, ?_,
      fun tail hends => scanNumber_negative hdigits hends⟩
    simp [Numeral.value?, hdigits.value, hsize]
    omega

/-- A sign that a number begins with. -/
def Leads (c : Char) : Prop := c = '-' ∨ c.isDigit = true

theorem Leads.ne {c other : Char} (h : Leads c) (hdash : other ≠ '-') (hother : other.isDigit = false) :
    c ≠ other := by
  rintro rfl
  rcases h with hc | hc
  · exact hdash hc
  · simp [hother] at hc

theorem Leads.isSpace {c : Char} (h : Leads c) : isSpace c = false := by
  have hspace : c ≠ ' ' := h.ne (by decide) (by decide)
  have htab : c ≠ '\t' := h.ne (by decide) (by decide)
  have hfeed : c ≠ '\n' := h.ne (by decide) (by decide)
  have hreturn : c ≠ '\r' := h.ne (by decide) (by decide)
  simp [Json.isSpace, hspace, htab, hfeed, hreturn]

theorem intChars_head (n : Int) : ∃ c rest, intChars n = c :: rest ∧ Leads c := by
  cases n with
  | ofNat n =>
    have hdigits := digits_toDigits n
    obtain ⟨c, rest, hparts⟩ := List.exists_cons_of_ne_nil hdigits.ne_nil
    exact ⟨c, rest, hparts, .inr (hdigits.isDigit c (by simp [hparts]))⟩
  | negSucc n => exact ⟨_, _, rfl, .inl rfl⟩

end Numbers

section Lists

variable {α β : Type} {item : List Char → Option (α × List Char)} {text : β → List Char} {found : β → α}
  {close : Char} {parts : List β}

/-- The texts of the parts of a list, with commas between them. -/
def joined (text : β → List Char) (parts : List β) : List Char := List.intercalate [','] (parts.map text)

@[simp] theorem joined_nil : joined text ([] : List β) = [] := rfl

@[simp] theorem joined_singleton (part : β) : joined text [part] = text part := by
  rw [joined, List.map_singleton, List.intercalate_singleton]

@[simp] theorem joined_cons_cons (part next : β) (rest : List β) :
    joined text (part :: next :: rest) = text part ++ ',' :: joined text (next :: rest) := by
  simp [joined, List.intercalate_cons_cons]

theorem text_infix_joined {part : β} (h : part ∈ parts) : text part <:+: joined text parts := by
  induction parts with
  | nil => cases h
  | cons first rest ih =>
    cases rest with
    | nil => simp [List.mem_singleton.mp h]
    | cons next rest =>
      rw [joined_cons_cons]
      rcases List.mem_cons.mp h with rfl | h
      · exact (List.prefix_append _ _).isInfix
      · exact (ih h).trans ((List.suffix_cons _ _).trans (List.suffix_append _ _)).isInfix

theorem length_le_joined (text : β → List Char) (parts : List β) :
    parts.length ≤ (joined text parts).length + 1 := by
  induction parts with
  | nil => simp
  | cons first rest ih =>
    cases rest with
    | nil => simp
    | cons next rest =>
      simp only [joined_cons_cons, List.length_append, List.length_cons] at ih ⊢
      omega

theorem newline_not_mem_joined (h : ∀ part ∈ parts, '\n' ∉ text part) : '\n' ∉ joined text parts := by
  induction parts with
  | nil => simp
  | cons first rest ih =>
    obtain ⟨hfirst, hrest⟩ := List.forall_mem_cons.mp h
    cases rest with
    | nil => simpa using hfirst
    | cons next rest => simp [hfirst, ih hrest]

theorem scanItems_joined {bound : Nat} {tail : List Char} (hclose : close = ']' ∨ close = '}')
    (hread : ∀ part ∈ parts, ∀ tail, Ends tail → item (text part ++ tail) = some (found part, tail))
    (hne : parts ≠ []) (hbound : parts.length ≤ bound) :
    scanItems item close bound (joined text parts ++ close :: tail) = some (parts.map found, tail) := by
  have hcomma : skipSpace (close :: tail) = close :: tail ∧ close ≠ ',' := by
    rcases hclose with rfl | rfl <;> exact ⟨skipSpace_cons (by decide) tail, by decide⟩
  induction parts generalizing bound with
  | nil => exact absurd rfl hne
  | cons first rest ih =>
    obtain ⟨hfirst, hrest⟩ := List.forall_mem_cons.mp hread
    cases bound with
    | zero => simp at hbound
    | succ bound =>
      cases rest with
      | nil =>
        have hitem : item (text first ++ close :: tail) = some (found first, close :: tail) :=
          hfirst (close :: tail) (.cons (.inr hclose))
        simp [scanItems, hitem, hcomma]
      | cons next rest =>
        let others := joined text (next :: rest) ++ close :: tail
        have hitem : item (text first ++ ',' :: others) = some (found first, ',' :: others) :=
          hfirst (',' :: others) (.cons (.inl rfl))
        have hothers : scanItems item close bound others = some ((next :: rest).map found, tail) :=
          ih hrest (List.cons_ne_nil next rest) (by simpa using hbound)
        rw [joined_cons_cons, List.append_assoc, List.cons_append]
        simp [scanItems, hitem, hothers, skipSpace_cons, isSpace, others]

/-- A list is read when its parts are, none of which begins with a blank or with the closing sign. -/
theorem scanList_joined {tail : List Char} (hclose : close = ']' ∨ close = '}')
    (hread : ∀ part ∈ parts, ∀ tail, Ends tail → item (text part ++ tail) = some (found part, tail))
    (hhead : ∀ part ∈ parts, ∃ c rest, text part = c :: rest ∧ isSpace c = false ∧ c ≠ close) :
    scanList item close (joined text parts ++ close :: tail) = some (parts.map found, tail) := by
  cases parts with
  | nil =>
    have hkeep : skipSpace (close :: tail) = close :: tail := by
      rcases hclose with rfl | rfl <;> exact skipSpace_cons (by decide) tail
    simp [scanList, hkeep]
  | cons first rest =>
    have hitems (bound : Nat) (hbound : (first :: rest).length ≤ bound) :
        scanItems item close bound (joined text (first :: rest) ++ close :: tail) =
          some ((first :: rest).map found, tail) :=
      scanItems_joined hclose hread (List.cons_ne_nil first rest) hbound
    obtain ⟨c, others, htext, hblank, hopen⟩ := hhead first List.mem_cons_self
    obtain ⟨others', hjoined⟩ : ∃ others', joined text (first :: rest) = c :: others' := by
      cases rest with
      | nil => exact ⟨others, by simp [htext]⟩
      | cons next rest => exact ⟨others ++ ',' :: joined text (next :: rest), by simp [htext]⟩
    -- each part but the last has a comma behind it, so the text is long enough to bound their number
    have hlength : (first :: rest).length ≤ (joined text (first :: rest)).length + 1 :=
      length_le_joined text (first :: rest)
    rw [hjoined] at hitems hlength
    rw [hjoined, List.cons_append, scanList, skipSpace_cons hblank]
    simp only [if_neg hopen]
    apply hitems
    simp only [List.length_cons, List.length_append] at hlength ⊢
    omega

end Lists

theorem itemChars_eq (items : List Json) : itemChars items = joined chars items := by
  induction items with
  | nil => rfl
  | cons first rest ih =>
    cases rest with
    | nil => rw [itemChars, joined_singleton]
    | cons next rest =>
      rw [itemChars, ih, joined_cons_cons]
      exact List.cons_ne_nil next rest

/-- A member as it is written. -/
def memberText (p : String × Json) : List Char := quoted p.1 ++ ':' :: chars p.2

theorem memberChars_eq (members : List (String × Json)) :
    memberChars members = joined memberText members := by
  induction members with
  | nil => rfl
  | cons first rest ih =>
    cases rest with
    | nil => rw [memberChars, joined_singleton, memberText]
    | cons next rest =>
      rw [memberChars, ih, joined_cons_cons, memberText]
      exact List.cons_ne_nil next rest

/-- A value that JSON can tell: its whole numbers are of 64 bits, its objects have each key once, and it has
no number that is kept in its spelling. -/
inductive Faithful : Json → Prop
  | null : Faithful .null
  | bool (b : Bool) : Faithful (.bool b)
  | int {n : Int} (fits : Fits n) : Faithful (.int n)
  | str (s : String) : Faithful (.str s)
  | arr {items : List Json} (each : ∀ item ∈ items, Faithful item) : Faithful (.arr items)
  | obj {members : List (String × Json)} (distinct : (members.map Prod.fst).Nodup)
    (each : ∀ p ∈ members, Faithful p.2) : Faithful (.obj members)

theorem newline_not_mem_intChars (n : Int) : '\n' ∉ intChars n := by
  have hdigits (n : Nat) : '\n' ∉ Nat.toDigits 10 n := fun hmem =>
    absurd ((digits_toDigits n).isDigit _ hmem) (by decide)
  cases n <;> simp [intChars, hdigits]

/-- A line break inside a value is written by its letter, so the text is one line. -/
theorem Faithful.newline_not_mem {j : Json} (h : Faithful j) : '\n' ∉ chars j := by
  induction h with
  | null => simp [chars]
  | bool b => cases b <;> simp [chars, boolChars]
  | int fits => exact newline_not_mem_intChars _
  | str s => exact newline_not_mem_quoted s
  | arr each ih => simp [chars, itemChars_eq, newline_not_mem_joined ih]
  | @obj members distinct each ih =>
    have hmembers : ∀ p ∈ members, '\n' ∉ memberText p := by
      intro p hp
      simp [memberText, newline_not_mem_quoted, ih p hp]
    simp [chars, memberChars_eq, newline_not_mem_joined hmembers]

/-- A written value begins with a sign that is neither a blank nor one that ends a list. -/
theorem Faithful.head {j : Json} (h : Faithful j) :
    ∃ c rest, chars j = c :: rest ∧ isSpace c = false ∧ c ≠ ']' ∧ c ≠ '}' := by
  cases h with
  | null => exact ⟨_, _, rfl, by decide⟩
  | bool b => cases b <;> exact ⟨_, _, rfl, by decide⟩
  | @int n fits =>
    obtain ⟨c, rest, hparts, hc⟩ := intChars_head n
    exact ⟨c, rest, hparts, hc.isSpace, hc.ne (by decide) (by decide), hc.ne (by decide) (by decide)⟩
  | str s => exact ⟨_, _, rfl, by decide⟩
  | arr each => exact ⟨_, _, rfl, by decide⟩
  | obj distinct each => exact ⟨_, _, rfl, by decide⟩

theorem values?_map {source : Json → Source} {items : List Json}
    (h : ∀ item ∈ items, (source item).value? = some item) :
    Source.values? (items.map source) = some items := by
  induction items with
  | nil => rfl
  | cons first rest ih =>
    obtain ⟨hfirst, hrest⟩ := List.forall_mem_cons.mp h
    simp [Source.values?, hfirst, ih hrest]

/-- Members with keys that are not there yet are put behind those that are. -/
theorem membersValue?_map {units : String → List StringUnit} {source : String × Json → Source}
    {before members : List (String × Json)} (hkeys : ∀ key, unitText? (units key) = some key)
    (h : ∀ p ∈ members, (source p).value? = some p.2)
    (hdistinct : ((before ++ members).map Prod.fst).Nodup) :
    Source.membersValue? before (members.map fun p => (units p.1, source p)) = some (before ++ members) := by
  induction members generalizing before with
  | nil => simp [Source.membersValue?]
  | cons first rest ih =>
    obtain ⟨hfirst, hrest⟩ := List.forall_mem_cons.mp h
    have hnew : ∀ p ∈ before, p.1 ≠ first.1 := by
      intro p hp hsame
      rw [List.map_append, List.map_cons, List.nodup_append] at hdistinct
      exact hdistinct.2.2 p.1 (List.mem_map_of_mem hp) first.1 List.mem_cons_self hsame
    have hput : put first.1 first.2 before = before ++ [first] := by
      rw [put, List.filter_eq_self.mpr fun p hp => decide_eq_true (hnew p hp)]
    have hothers : Source.membersValue? (before ++ [first]) (rest.map fun p => (units p.1, source p)) =
        some (before ++ [first] ++ rest) := ih hrest (by simpa using hdistinct)
    simp [Source.membersValue?, hkeys, hfirst, hput, hothers]

/-- A source that a value's written form is read as, whatever stands behind it. -/
structure ReadAs (j : Json) (source : Source) : Prop where
  value : source.value? = some j
  scan : ∀ depth tail, (chars j).length ≤ depth → Ends tail →
    scanValue depth (chars j ++ tail) = some (source, tail)

/-- A written value is not empty, so some depth is left for it. -/
theorem ReadAs.intro {j : Json} {source : Source} (h : Faithful j) (value : source.value? = some j)
    (scan : ∀ depth tail, (chars j).length ≤ depth + 1 → Ends tail →
      scanValue (depth + 1) (chars j ++ tail) = some (source, tail)) : ReadAs j source where
  value := value
  scan depth tail hdepth hends := by
    obtain ⟨c, rest, hparts, -⟩ := h.head
    cases depth with
    | zero => simp [hparts] at hdepth
    | succ depth => exact scan depth tail hdepth hends

/-- What begins with a digit or with a minus is read as a number. -/
theorem scanValue_number {depth : Nat} {c : Char} {rest : List Char} (h : Leads c) :
    scanValue (depth + 1) (c :: rest) =
      (scanNumber (c :: rest)).map fun found => (.number found.1, found.2) := by
  rw [scanValue, skipSpace_cons h.isSpace]
  -- every other kind of value begins with a sign of its own
  split
  all_goals first
    | rfl
    | next heq => exact absurd (List.cons.inj heq).1 (h.ne (by decide) (by decide))

/-- A member is read as its key and its value are. -/
theorem scanMember_memberText {value : List Char → Option (Source × List Char)} {p : String × Json}
    {units : List StringUnit} {source : Source} {tail : List Char}
    (hkey : ∀ tail, scanString (p.1.toList.flatMap escapeChar ++ '"' :: tail) = some (units, tail))
    (hvalue : value (chars p.2 ++ tail) = some (source, tail)) :
    scanMember value (memberText p ++ tail) = some ((units, source), tail) := by
  simp [scanMember, memberText, quoted, skipSpace_cons, isSpace, hkey, hvalue]

/-- Each value has a source that it is read as. -/
theorem Faithful.readAs {j : Json} (h : Faithful j) : ∃ source, ReadAs j source := by
  induction h with
  | null => exact ⟨_, .intro .null rfl fun depth tail _ _ => rfl⟩
  | bool b =>
    refine ⟨.bool b, .intro (.bool b) rfl fun depth tail _ _ => ?_⟩
    cases b <;> rfl
  | @int n fits =>
    obtain ⟨numeral, hvalue, hscan⟩ := scanNumber_intChars fits
    obtain ⟨c, rest, hparts, hhead⟩ := intChars_head n
    refine ⟨.number numeral, .intro (.int fits) hvalue fun depth tail _ hends => ?_⟩
    have hnumber : scanValue (depth + 1) (c :: (rest ++ tail)) =
        (scanNumber (c :: (rest ++ tail))).map fun found => (.number found.1, found.2) :=
      scanValue_number hhead
    rw [← List.cons_append, ← hparts, hscan tail hends] at hnumber
    exact hnumber
  | str s =>
    obtain ⟨units, hunits, hscan⟩ := scanString_escaped s
    refine ⟨.string units, .intro (.str s) ?_ fun depth tail _ _ => ?_⟩
    · rw [Source.value?, hunits, Option.map_some]
    · simp [scanValue, chars, quoted, skipSpace_cons, isSpace, hscan]
  | @arr items each ih =>
    choose! source hsource using ih
    have hvalues : Source.values? (items.map source) = some items :=
      values?_map fun item hitem => (hsource item hitem).value
    refine ⟨.array (items.map source), .intro (.arr each) ?_ fun depth tail hdepth _ => ?_⟩
    · rw [Source.value?, hvalues, Option.map_some]
    · have hread : ∀ item ∈ items, ∀ tail, Ends tail →
          scanValue depth (chars item ++ tail) = some (source item, tail) := by
        intro item hitem tail hends
        apply (hsource item hitem).scan depth tail _ hends
        have hlength : (chars item).length ≤ (joined chars items).length :=
          (text_infix_joined hitem).length_le
        simp only [chars, itemChars_eq, List.length_append, List.length_cons] at hdepth
        omega
      have hlist : scanList (scanValue depth) ']' (joined chars items ++ ']' :: tail) =
          some (items.map source, tail) := by
        apply scanList_joined (.inl rfl) hread
        intro item hitem
        obtain ⟨c, rest, hparts, hblank, hopen, -⟩ := (each item hitem).head
        exact ⟨c, rest, hparts, hblank, hopen⟩
      simp [scanValue, chars, itemChars_eq, skipSpace_cons, isSpace, hlist]
  | @obj members distinct each ih =>
    choose units hunits hkey using scanString_escaped
    choose! source hsource using ih
    have hvalues : Source.membersValue? [] (members.map fun p => (units p.1, source p)) =
        some ([] ++ members) :=
      membersValue?_map hunits (fun p hp => (hsource p hp).value) distinct
    refine ⟨.object (members.map fun p => (units p.1, source p)),
      .intro (.obj distinct each) ?_ fun depth tail hdepth _ => ?_⟩
    · rw [Source.value?, hvalues, Option.map_some, List.nil_append]
    · have hread : ∀ p ∈ members, ∀ tail, Ends tail →
          scanMember (scanValue depth) (memberText p ++ tail) = some ((units p.1, source p), tail) := by
        intro p hp tail hends
        apply scanMember_memberText (hkey p.1)
        apply (hsource p hp).scan depth tail _ hends
        have hlength : (memberText p).length ≤ (joined memberText members).length :=
          (text_infix_joined hp).length_le
        simp only [memberText, List.length_append, List.length_cons] at hlength
        simp only [chars, memberChars_eq, List.length_append, List.length_cons] at hdepth
        omega
      have hlist : scanList (scanMember (scanValue depth)) '}' (joined memberText members ++ '}' :: tail) =
          some (members.map fun p => (units p.1, source p), tail) :=
        scanList_joined (.inr rfl) hread fun p _ => ⟨_, _, rfl, by decide⟩
      simp [scanValue, chars, memberChars_eq, skipSpace_cons, isSpace, hlist]

/-- What is written is read back. -/
theorem Faithful.parse_render {j : Json} (h : Faithful j) : parse (render j) = some j := by
  obtain ⟨source, hsource⟩ := h.readAs
  have hwhole := hsource.scan ((chars j).length + 1) [] (by omega) .nil
  rw [List.append_nil] at hwhole
  have hread : Source.parse (render j) = some source := by
    rw [Source.parse, render, String.toList_ofList]
    simp only [hwhole]
    rfl
  rw [parse, hread]
  exact hsource.value

end GuardedRun.Json
