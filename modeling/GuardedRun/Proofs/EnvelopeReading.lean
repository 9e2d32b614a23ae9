import GuardedRun.Engine.Http
import Mathlib.Data.List.Forall2

/-! What it means for a body to be an envelope. An envelope and a refusal are records: objects that may
hold members nobody asks for, or arrays that may lack fields at their end. A field that is left out
stands for its default, and a field that is given twice makes a record unreadable. -/

namespace GuardedRun.Http.Envelope

open Json (Source)

variable {α : Type}

/-- The value stands for a flag. -/
def SaysFlag (s : Source) (b : Bool) : Prop := s = .bool b

/-- The value stands for a text. -/
def SaysText (s : Source) (t : String) : Prop :=
  ∃ units, s = .string units ∧ Json.unitText? units = some t

/-- The value stands for texts, in their order. -/
def SaysLog (s : Source) (ts : List String) : Prop :=
  ∃ items, s = .array items ∧ List.Forall₂ SaysText items ts

/-- The value stands for data, unless it is nested too deep. -/
def SaysData (s : Source) (data : Json) : Prop :=
  s.nesting + 1 ≤ maxNesting ∧ s.value? = some data

/-- What a field says: its default, where it is left out. -/
def FieldSays (default : α) (Says : Source → α → Prop) : Option Source → α → Prop
  | none, a => default = a
  | some s, a => Says s a

/-- The members of an object, all of them with readable keys. -/
def Keyed (raw : List (List Json.StringUnit × Source)) (members : List (String × Source)) : Prop :=
  List.Forall₂ (fun r m => Json.unitText? r.1 = some m.1 ∧ r.2 = m.2) raw members

/-- What members hold under a key: nothing, or one value. -/
def Holds (members : List (String × Source)) (key : String) : Option Source → Prop
  | none => ∀ m ∈ members, m.1 ≠ key
  | some s => ∃ before after, members = before ++ (key, s) :: after ∧
    (∀ m ∈ before, m.1 ≠ key) ∧ ∀ m ∈ after, m.1 ≠ key

/-- The items of an array fill the places of fields from the first one on. -/
def Fills : List Source → List (Option Source) → Prop
  | [], [] => True
  | [], place :: places => place = none ∧ Fills [] places
  | _ :: _, [] => False
  | s :: items, place :: places => place = some s ∧ Fills items places

/-- The value is a record whose fields are as listed. -/
inductive Record : Source → List (String × Option Source) → Prop
  | object {raw members fields} (keyed : Keyed raw members)
    (holds : ∀ field ∈ fields, Holds members field.1 field.2) : Record (.object raw) fields
  | array {items fields} (fills : Fills items (fields.map (·.2))) : Record (.array items) fields

/-- The value describes a refusal. -/
def Describes (s : Source) (refusal : Refusal) : Prop :=
  ∃ message log, Record s [("message", message), ("log", log)] ∧
    FieldSays "" SaysText message refusal.message ∧ FieldSays [] SaysLog log refusal.log

/-- The value stands for a refusal, or says that there is none. -/
def SaysError (s : Source) : Option Refusal → Prop
  | none => s = .null
  | some refusal => Describes s refusal

/-- The value is an envelope. -/
def Reads (s : Source) (envelope : Envelope) : Prop :=
  ∃ ok error data, Record s [("ok", some ok), ("error", error), ("data", data)] ∧
    SaysFlag ok envelope.ok ∧ FieldSays none SaysError error envelope.refusal ∧
    FieldSays .null SaysData data envelope.data

/-- The body is an envelope, and all of it is there. -/
def Spells (body : Body) (envelope : Envelope) : Prop :=
  body.whole = true ∧ ∃ s, Source.ofBytes body.bytes = some s ∧ Reads s envelope

theorem flag?_eq_some {s : Source} {b : Bool} : flag? s = some b ↔ SaysFlag s b := by
  cases s <;> simp [flag?, SaysFlag]

theorem text?_eq_some {s : Source} {t : String} : text? s = some t ↔ SaysText s t := by
  cases s <;> simp [text?, SaysText]

theorem texts?_eq_some {items : List Source} {ts : List String} :
    texts? items = some ts ↔ List.Forall₂ SaysText items ts := by
  induction items generalizing ts with
  | nil => simp [texts?, eq_comm]
  | cons s rest ih =>
    rw [List.forall₂_cons_left_iff]
    simp only [texts?, Option.bind_eq_bind, Option.bind_eq_some_iff, text?_eq_some, ih, pure,
      Option.some.injEq]
    constructor
    · rintro ⟨t, ht, ts', hts, rfl⟩
      exact ⟨t, ts', ht, hts, rfl⟩
    · rintro ⟨t, ts', ht, hts, rfl⟩
      exact ⟨t, ht, ts', hts, rfl⟩

theorem log?_eq_some {s : Source} {ts : List String} : log? s = some ts ↔ SaysLog s ts := by
  cases s <;> simp [log?, SaysLog, texts?_eq_some]

theorem data?_eq_some {s : Source} {data : Json} : data? s = some data ↔ SaysData s data := by
  simp [data?, SaysData]

theorem orElse?_eq_some {default a : α} {read : Source → Option α} {Says : Source → α → Prop}
    (hread : ∀ s a, read s = some a ↔ Says s a) {place : Option Source} :
    orElse? default read place = some a ↔ FieldSays default Says place a := by
  cases place with
  | none => simp [orElse?, FieldSays]
  | some s => exact hread s a

theorem keys?_eq_some {raw : List (List Json.StringUnit × Source)}
    {members : List (String × Source)} : keys? raw = some members ↔ Keyed raw members := by
  unfold Keyed
  induction raw generalizing members with
  | nil => simp [keys?, eq_comm]
  | cons r rest ih =>
    obtain ⟨units, s⟩ := r
    rw [List.forall₂_cons_left_iff]
    simp only [keys?, Option.bind_eq_bind, Option.bind_eq_some_iff, ih, pure, Option.some.injEq]
    constructor
    · rintro ⟨key, hkey, others, hothers, rfl⟩
      exact ⟨(key, s), others, ⟨hkey, rfl⟩, hothers, rfl⟩
    · rintro ⟨⟨key, s'⟩, others, ⟨hkey, rfl⟩, hothers, rfl⟩
      exact ⟨key, hkey, others, hothers, rfl⟩

theorem occurrences_eq_nil {key : String} {members : List (String × Source)} :
    occurrences key members = [] ↔ Holds members key none := by
  simp [occurrences, Holds]

theorem occurrences_eq_singleton {key : String} {members : List (String × Source)} {s : Source} :
    occurrences key members = [s] ↔ Holds members key (some s) := by
  unfold occurrences Holds
  constructor
  · intro h
    obtain ⟨⟨key', s'⟩, hfilter, rfl⟩ := List.map_eq_singleton_iff.mp h
    obtain ⟨before, after, rfl, hbefore, hkey, hafter⟩ := List.filter_eq_cons_iff.mp hfilter
    obtain rfl : key' = key := by simpa using hkey
    refine ⟨before, after, rfl, ?_, ?_⟩
    · simpa using hbefore
    · simpa using hafter
  · rintro ⟨before, after, rfl, hbefore, hafter⟩
    have hnone {part : List (String × Source)} (h : ∀ m ∈ part, m.1 ≠ key) :
        part.filter (·.1 = key) = [] := by simpa using h
    rw [List.filter_append, hnone hbefore, List.filter_cons_of_pos (by simp), hnone hafter]
    rfl

theorem field?_eq_some {key : String} {members : List (String × Source)} {place : Option Source} :
    field? key members = some place ↔ Holds members key place := by
  unfold field?
  cases place with
  | none =>
    rw [← occurrences_eq_nil]
    split <;> simp_all
  | some s =>
    rw [← occurrences_eq_singleton]
    split <;> simp_all

theorem record_object {raw : List (List Json.StringUnit × Source)}
    {fields : List (String × Option Source)} :
    Record (.object raw) fields ↔
      ∃ members, Keyed raw members ∧ ∀ field ∈ fields, Holds members field.1 field.2 := by
  constructor
  · rintro ⟨keyed, holds⟩
    exact ⟨_, keyed, holds⟩
  · rintro ⟨members, keyed, holds⟩
    exact .object keyed holds

theorem record_array {items : List Source} {fields : List (String × Option Source)} :
    Record (.array items) fields ↔ Fills items (fields.map (·.2)) := by
  constructor
  · rintro ⟨⟩
    assumption
  · exact .array

theorem refusal?_eq_some {s : Source} {refusal : Refusal} :
    refusal? s = some refusal ↔ Describes s refusal := by
  have hmessage (place : Option Source) (t : String) :
      orElse? "" text? place = some t ↔ FieldSays "" SaysText place t :=
    orElse?_eq_some fun _ _ => text?_eq_some
  have hlog (place : Option Source) (ts : List String) :
      orElse? [] log? place = some ts ↔ FieldSays [] SaysLog place ts :=
    orElse?_eq_some fun _ _ => log?_eq_some
  cases s with
  | object raw =>
    simp only [refusal?, Describes, record_object, Option.bind_eq_bind, Option.bind_eq_some_iff,
      keys?_eq_some, field?_eq_some, hmessage, hlog, pure, Option.some.injEq]
    constructor
    · rintro ⟨members, hkeys, m, hm, _, htext, l, hl, _, hlines, rfl⟩
      exact ⟨m, l, ⟨members, hkeys, by simp [hm, hl]⟩, htext, hlines⟩
    · rintro ⟨m, l, ⟨members, hkeys, hholds⟩, htext, hlines⟩
      obtain ⟨hm, hl⟩ : Holds members "message" m ∧ Holds members "log" l := by simpa using hholds
      exact ⟨members, hkeys, m, hm, _, htext, l, hl, _, hlines, rfl⟩
  | array items =>
    obtain ⟨message, log⟩ := refusal
    -- by the fields that are there; an array with more of them is no record
    simp only [Describes, record_array, List.map_cons, List.map_nil]
    rcases items with _ | ⟨m, _ | ⟨l, _ | ⟨x, rest⟩⟩⟩
    · simp [refusal?, Fills, FieldSays]
    · simp [refusal?, Fills, FieldSays, text?_eq_some, Option.bind_eq_some_iff]
    · simp [refusal?, Fills, FieldSays, text?_eq_some, log?_eq_some, Option.bind_eq_some_iff]
    · simp [refusal?, Fills]
  | null | bool | number | string =>
    refine ⟨nofun, ?_⟩
    rintro ⟨m, l, hrecord, -⟩
    cases hrecord

theorem error?_of_ne_null {s : Source} (h : s ≠ .null) : error? s = (refusal? s).map some := by
  cases s with
  | null => exact absurd rfl h
  | bool | number | string | array | object => rfl

theorem error?_eq_some {s : Source} {refusal : Option Refusal} :
    error? s = some refusal ↔ SaysError s refusal := by
  -- null describes no refusal, so it can only say that there is none
  by_cases hnull : s = .null
  · subst hnull
    cases refusal with
    | none => simp [error?, SaysError]
    | some refusal =>
      rw [SaysError, ← refusal?_eq_some]
      simp [error?, refusal?]
  · rw [error?_of_ne_null hnull]
    cases refusal with
    | none => simp [SaysError, hnull]
    | some refusal =>
      rw [SaysError, ← refusal?_eq_some]
      simp

/-- Reading a value as an envelope succeeds on the envelopes, with what they say. -/
theorem ofSource?_eq_some {s : Source} {envelope : Envelope} :
    ofSource? s = some envelope ↔ Reads s envelope := by
  have herror (place : Option Source) (refusal : Option Refusal) :
      orElse? none error? place = some refusal ↔ FieldSays none SaysError place refusal :=
    orElse?_eq_some fun _ _ => error?_eq_some
  have hdata (place : Option Source) (data : Json) :
      orElse? .null data? place = some data ↔ FieldSays .null SaysData place data :=
    orElse?_eq_some fun _ _ => data?_eq_some
  cases s with
  | object raw =>
    simp only [ofSource?, Reads, record_object, Option.bind_eq_bind, Option.bind_eq_some_iff,
      keys?_eq_some, field?_eq_some, flag?_eq_some, herror, hdata, pure, Option.some.injEq]
    constructor
    · rintro ⟨members, hkeys, _, hok, o, rfl, b, hflag, e, herror, _, hrefusal, d, hdata, _, hvalue,
        rfl⟩
      exact ⟨o, e, d, ⟨members, hkeys, by simp [hok, herror, hdata]⟩, hflag, hrefusal, hvalue⟩
    · rintro ⟨o, e, d, ⟨members, hkeys, hholds⟩, hflag, hrefusal, hvalue⟩
      obtain ⟨hok, herror, hdata⟩ : Holds members "ok" (some o) ∧ Holds members "error" e ∧
          Holds members "data" d := by simpa using hholds
      exact ⟨members, hkeys, _, hok, o, rfl, _, hflag, e, herror, _, hrefusal, d, hdata, _, hvalue, rfl⟩
  | array items =>
    obtain ⟨ok, refusal, data⟩ := envelope
    simp only [Reads, record_array, List.map_cons, List.map_nil]
    rcases items with _ | ⟨o, _ | ⟨e, _ | ⟨d, _ | ⟨x, rest⟩⟩⟩⟩
    · simp [ofSource?, Fills]
    · cases ok <;> simp [ofSource?, Fills, FieldSays, flag?_eq_some, Option.bind_eq_some_iff]
    · cases ok <;> simp [ofSource?, Fills, FieldSays, flag?_eq_some, error?_eq_some,
        Option.bind_eq_some_iff]
    · cases ok <;> simp [ofSource?, Fills, FieldSays, flag?_eq_some, error?_eq_some,
        data?_eq_some, Option.bind_eq_some_iff]
    · simp [ofSource?, Fills]
  | null | bool | number | string =>
    refine ⟨nofun, ?_⟩
    rintro ⟨o, e, d, hrecord, -⟩
    cases hrecord

/-- The bodies that can be read as envelopes are the envelopes. -/
theorem read_eq_ok {body : Body} {envelope : Envelope} :
    read body = .ok envelope ↔ Spells body envelope := by
  rw [read, Spells]
  cases hwhole : body.whole with
  | false => simp
  | true =>
    rw [if_pos rfl]
    simp only [true_and, ← ofSource?_eq_some, ← Option.bind_eq_some_iff, ← Option.bind_eq_bind]
    cases Source.ofBytes body.bytes >>= ofSource? <;> simp

end GuardedRun.Http.Envelope
