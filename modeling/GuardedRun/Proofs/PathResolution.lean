import GuardedRun.Proofs.FlagGrammar
import GuardedRun.Proofs.OpenProjects
import Mathlib.Logic.Relation

/-! Paths as seen from a working directory. What a path from the root names is the list of its segments
that say something, and a relative path adds its own to those of the directory; written down again they
have one spelling. -/

namespace GuardedRun

namespace Path

/-- The segments that say something; `..` is one of them. -/
def solid (s : List Char) : List (List Char) :=
  (Text.splitOn '/' s).filter fun segment => segment ≠ [] ∧ segment ≠ ['.']

/-- The spelling of segments behind the root. -/
def rooted (segments : List (List Char)) : List Char :=
  if segments = [] then ['/'] else segments.flatMap ('/' :: ·)

/-- The segment says something and is one. -/
def IsSolid (segment : List Char) : Prop := segment ≠ [] ∧ segment ≠ ['.'] ∧ '/' ∉ segment

variable {s a b : List Char} {segment : List Char} {segments : List (List Char)} {wd raw raw' p q : Path}

theorem isSolid_of_mem_solid (h : segment ∈ solid s) : IsSolid segment := by
  obtain ⟨hpart, hsolid⟩ := List.mem_filter.mp h
  obtain ⟨hne, hdot⟩ := of_decide_eq_true hsolid
  exact ⟨hne, hdot, (Text.mem_splitOn.mp hpart).1⟩

theorem solid_append (a b : List Char) : solid (a ++ '/' :: b) = solid a ++ solid b := by
  rw [solid, Text.splitOn_append, List.filter_append]
  rfl

theorem solid_nil : solid [] = [] := rfl

theorem solid_dot : solid ['.'] = [] := rfl

theorem solid_slash (b : List Char) : solid ('/' :: b) = solid b := by
  have h := solid_append [] b
  rwa [solid_nil, List.nil_append, List.nil_append] at h

theorem solid_dot_slash (b : List Char) : solid ('.' :: '/' :: b) = solid b := by
  have h := solid_append ['.'] b
  rwa [solid_dot, List.nil_append, List.singleton_append] at h

/-- Behind slashes the segments are what stands between the slashes. -/
theorem splitOn_flatMap (h : ∀ segment ∈ segments, IsSolid segment) :
    Text.splitOn '/' (segments.flatMap ('/' :: ·)) = [] :: segments := by
  induction segments using List.reverseRecOn with
  | nil => rfl
  | append_singleton segments segment ih =>
    obtain ⟨hsegments, hsegment⟩ := List.forall_mem_append.mp h
    obtain ⟨-, -, hslash⟩ := hsegment segment List.mem_cons_self
    simp only [List.flatMap_append, List.flatMap_singleton]
    rw [Text.splitOn_append, ih hsegments, Text.splitOn_of_not_mem hslash, List.cons_append]

/-- Segments are read back from their spelling. -/
theorem solid_rooted (h : ∀ segment ∈ segments, IsSolid segment) : solid (rooted segments) = segments := by
  by_cases hnil : segments = []
  · subst hnil
    rfl
  · rw [rooted, if_neg hnil, solid, splitOn_flatMap h, List.filter_cons_of_neg (by simp),
      List.filter_eq_self]
    intro segment hsegment
    obtain ⟨hne, hdot, -⟩ := h segment hsegment
    exact decide_eq_true ⟨hne, hdot⟩

theorem getLast?_flatMap (h : ∀ segment ∈ segments, IsSolid segment) :
    (segments.flatMap ('/' :: ·)).getLast? ≠ some '/' := by
  induction segments using List.reverseRecOn with
  | nil => simp
  | append_singleton segments segment ih =>
    obtain ⟨-, hsegment⟩ := List.forall_mem_append.mp h
    obtain ⟨hne, -, hslash⟩ := hsegment segment List.mem_cons_self
    intro hlast
    simp only [List.flatMap_append, List.flatMap_singleton, List.getLast?_append] at hlast
    rw [List.getLast?_cons, List.getLast?_eq_some_getLast hne] at hlast
    simp only [Option.getD_some, Option.some_or, Option.some.injEq] at hlast
    exact hslash (hlast ▸ List.getLast_mem hne)

/-- One more segment goes behind a slash, of which the root brings one along. -/
theorem joinChars_rooted (h : ∀ segment ∈ segments, IsSolid segment) (hsegment : IsSolid segment) :
    joinChars (rooted segments) segment = rooted (segments ++ [segment]) := by
  obtain ⟨hne, -, hslash⟩ := hsegment
  have hhead : segment.head? ≠ some '/' := fun hhead => hslash (List.mem_of_mem_head? hhead)
  have hboth : rooted (segments ++ [segment]) = segments.flatMap ('/' :: ·) ++ '/' :: segment := by
    simp [rooted]
  rw [joinChars, if_neg hhead, hboth]
  -- the root ends in a slash already, any other path ends in a segment
  by_cases hnil : segments = []
  · subst hnil
    rfl
  · rw [rooted, if_neg hnil]
    split
    · next hend =>
      rw [List.getLast?_eq_none_iff, List.flatMap_eq_nil_iff] at hend
      obtain ⟨first, hfirst⟩ := List.exists_mem_of_ne_nil segments hnil
      exact absurd (hend first hfirst) (List.cons_ne_nil _ _)
    · next hend => exact absurd hend (getLast?_flatMap h)
    · rfl

theorem charsOfComponents_rooted {cs : List Component} (h : ∀ c ∈ cs, IsSolid c.chars) :
    charsOfComponents (.root :: cs) = rooted (cs.map (·.chars)) := by
  induction cs using List.reverseRecOn with
  | nil => rfl
  | append_singleton cs c ih =>
    obtain ⟨hcs, hc⟩ := List.forall_mem_append.mp h
    have hstep : charsOfComponents (.root :: (cs ++ [c])) =
        joinChars (charsOfComponents (.root :: cs)) c.chars := by
      rw [charsOfComponents, ← List.cons_append, List.foldl_append]
      rfl
    rw [hstep, ih hcs, joinChars_rooted (by simpa using hcs) (hc c List.mem_cons_self), List.map_append]
    rfl

theorem segmentComponent?_eq_none : segmentComponent? segment = none ↔ segment = [] ∨ segment = ['.'] := by
  rw [segmentComponent?.eq_def]
  split <;> simp_all

theorem chars_of_segmentComponent? {c : Component} (h : segmentComponent? segment = some c) :
    c.chars = segment := by
  rw [segmentComponent?.eq_def] at h
  split at h <;> cases h <;> rfl

theorem componentsBehind_eq (s : List Char) :
    componentsBehind s = (solid s).filterMap segmentComponent? := by
  rw [componentsBehind, solid, List.filterMap_filter]
  congr 1
  funext segment
  by_cases h : segmentComponent? segment = none
  · simp [h]
  · have hsolid := h
    rw [segmentComponent?_eq_none, not_or] at hsolid
    simp [hsolid]

theorem map_chars_componentsBehind (s : List Char) : (componentsBehind s).map (·.chars) = solid s := by
  rw [componentsBehind_eq, List.map_filterMap]
  have hkept (segment) (h : segment ∈ solid s) :
      (segmentComponent? segment).map (·.chars) = some segment := by
    obtain ⟨hne, hdot, -⟩ := isSolid_of_mem_solid h
    obtain ⟨c, hc⟩ := Option.ne_none_iff_exists'.mp fun hnone =>
      (segmentComponent?_eq_none.mp hnone).elim hne hdot
    rw [hc, Option.map_some, chars_of_segmentComponent? hc]
  rw [List.filterMap_congr hkept, List.filterMap_some]

theorem componentsOf_of_head (h : s.head? = some '/') : componentsOf s = .root :: componentsBehind s := by
  obtain ⟨rest, rfl⟩ := List.head?_eq_some_iff.mp h
  rw [componentsOf_slash, componentsBehind_slash]

theorem isAbsolute_iff : p.isAbsolute ↔ p.text.toList.head? = some '/' := by
  simp [isAbsolute]

/-- Paths from the root name one place where they have the same segments that say something. -/
theorem same_iff_solid (hp : p.isAbsolute) (hq : q.isAbsolute) :
    p.same q ↔ solid p.text.toList = solid q.text.toList := by
  rw [isAbsolute_iff] at hp hq
  rw [same_iff, components, components, componentsOf_of_head hp, componentsOf_of_head hq]
  constructor
  · intro h
    rw [← map_chars_componentsBehind, ← map_chars_componentsBehind, (List.cons.inj h).2]
  · intro h
    rw [componentsBehind_eq, componentsBehind_eq, h]

theorem head?_joinChars (ha : a.head? = some '/') (hb : b.head? ≠ some '/') :
    (joinChars a b).head? = some '/' := by
  obtain ⟨rest, rfl⟩ := List.head?_eq_some_iff.mp ha
  rw [joinChars, if_neg hb]
  split <;> simp_all

theorem solid_joinChars (ha : a.head? = some '/') (hb : b.head? ≠ some '/') :
    solid (joinChars a b) = solid a ++ solid b := by
  rw [joinChars, if_neg hb]
  split
  · next hlast =>
    rw [List.getLast?_eq_none_iff.mp hlast] at ha
    cases ha
  · next hlast =>
    obtain ⟨front, rfl⟩ := List.getLast?_eq_some_iff.mp hlast
    rw [List.append_assoc, List.singleton_append, solid_append, solid_append, solid_nil, List.append_nil]
  · exact solid_append a b

/-- A relative path is resolved to the one spelling of its segments behind those of the directory. -/
theorem toList_resolve (hwd : wd.isAbsolute) (hraw : ¬ raw.isAbsolute) :
    (resolve wd raw).text.toList = rooted (solid wd.text.toList ++ solid raw.text.toList) := by
  rw [isAbsolute_iff] at hwd
  have hhead : raw.text.toList.head? ≠ some '/' := fun h => hraw (isAbsolute_iff.mpr h)
  have htext : (wd / raw).text.toList = joinChars wd.text.toList raw.text.toList := String.toList_ofList
  rw [resolve, if_neg hraw, ofComponents, String.toList_ofList, components, htext,
    componentsOf_of_head (head?_joinChars hwd hhead), charsOfComponents_rooted,
    map_chars_componentsBehind, solid_joinChars hwd hhead]
  -- what is written again are segments of the joined path
  intro c hc
  apply isSolid_of_mem_solid (s := joinChars wd.text.toList raw.text.toList)
  rw [← map_chars_componentsBehind]
  exact List.mem_map_of_mem hc

theorem resolve_of_absolute (h : raw.isAbsolute) : resolve wd raw = raw := by
  rw [resolve, if_pos h]

theorem join_of_absolute (h : raw.isAbsolute) : wd / raw = raw := by
  change join wd raw = raw
  rw [join, joinChars, if_pos (isAbsolute_iff.mp h)]
  simp

theorem head?_rooted (segments : List (List Char)) : (rooted segments).head? = some '/' := by
  cases segments <;> rfl

theorem isAbsolute_resolve (hwd : wd.isAbsolute) (raw : Path) : (resolve wd raw).isAbsolute := by
  by_cases hraw : raw.isAbsolute
  · rwa [resolve_of_absolute hraw]
  · rw [isAbsolute_iff, toList_resolve hwd hraw, head?_rooted]

/-- What is resolved keeps every segment that says something, in order. -/
theorem solid_resolve (hwd : wd.isAbsolute) (hraw : ¬ raw.isAbsolute) :
    solid (resolve wd raw).text.toList = solid wd.text.toList ++ solid raw.text.toList := by
  rw [toList_resolve hwd hraw, solid_rooted]
  intro segment hsegment
  exact (List.mem_append.mp hsegment).elim isSolid_of_mem_solid isSolid_of_mem_solid

theorem same_resolve (hwd : wd.isAbsolute) (raw : Path) : (resolve wd raw).same (wd / raw) := by
  by_cases hraw : raw.isAbsolute
  · rw [resolve_of_absolute hraw, join_of_absolute hraw]
    exact same_refl raw
  · have hhead : raw.text.toList.head? ≠ some '/' := fun h => hraw (isAbsolute_iff.mpr h)
    have htext : (wd / raw).text.toList = joinChars wd.text.toList raw.text.toList :=
      String.toList_ofList
    have hjoin : (wd / raw).isAbsolute := by
      rw [isAbsolute_iff, htext, head?_joinChars (isAbsolute_iff.mp hwd) hhead]
    rw [same_iff_solid (isAbsolute_resolve hwd raw) hjoin, solid_resolve hwd hraw, htext,
      solid_joinChars (isAbsolute_iff.mp hwd) hhead]

theorem resolve_eq_iff (hwd : wd.isAbsolute) (hraw : ¬ raw.isAbsolute) (hraw' : ¬ raw'.isAbsolute) :
    resolve wd raw = resolve wd raw' ↔ solid raw.text.toList = solid raw'.text.toList := by
  constructor
  · intro h
    have hsolid := congrArg (fun p : Path => solid p.text.toList) h
    simp only [solid_resolve hwd hraw, solid_resolve hwd hraw'] at hsolid
    exact List.append_cancel_left hsolid
  · intro h
    have htext : (resolve wd raw).text = (resolve wd raw').text := by
      rw [← String.toList_inj, toList_resolve hwd hraw, toList_resolve hwd hraw', h]
    cases hp : resolve wd raw
    cases hq : resolve wd raw'
    rw [hp, hq] at htext
    rw [Path.mk.injEq]
    exact htext

/-- A relative path once more, with one slash or dot that says nothing. -/
inductive Respaced : Path → Path → Prop
  | respelled {p q : Path} (h : Respelled p q) : Respaced p q
  | led {a : List Char} (ha : a.head? ≠ some '/') :
    Respaced ⟨String.ofList ('.' :: '/' :: a)⟩ ⟨String.ofList a⟩
  | dotted {a : List Char} (ha : a ≠ []) : Respaced ⟨String.ofList (a ++ ['/', '.'])⟩ ⟨String.ofList a⟩
  | dot : Respaced ⟨"."⟩ ⟨""⟩

theorem Respaced.solid_eq (h : Respaced p q) : solid p.text.toList = solid q.text.toList := by
  cases h with
  | respelled h =>
    cases h with
    | doubled a b => simp [solid_append, solid_slash]
    | dotted a b => simp [solid_append, solid_dot_slash]
    | trailed a ha => simp [solid_append, solid_nil]
  | @led a ha => simp [solid_dot_slash]
  | @dotted a ha => simp [solid_append, solid_dot]
  | dot => rfl

theorem solid_eq_of_eqvGen (h : Relation.EqvGen Respaced p q) :
    solid p.text.toList = solid q.text.toList := by
  induction h with
  | rel p q h => exact h.solid_eq
  | refl p => rfl
  | symm p q _ ih => exact ih.symm
  | trans p q r _ _ ih ih' => exact ih.trans ih'

/-- The spelling of segments that starts nowhere. -/
def loose (segments : List (List Char)) : Path := ⟨String.ofList (List.intercalate ['/'] segments)⟩

/-- A segment that says nothing can be taken out of a relative path. -/
theorem exists_respaced {part : List Char} (hs : s.head? ≠ some '/') (hne : s ≠ [])
    (hpart : Text.IsPart '/' s part) (hempty : part = [] ∨ part = ['.']) :
    ∃ s' : List Char, s'.length < s.length ∧ s'.head? ≠ some '/' ∧
      Respaced ⟨String.ofList s⟩ ⟨String.ofList s'⟩ := by
  obtain ⟨-, before, after, rfl, hbefore, hafter⟩ := hpart
  -- by what the segment stands between
  rcases hbefore with rfl | hbefore
  · rcases hafter with rfl | hafter
    · rcases hempty with rfl | rfl
      · exact absurd rfl hne
      · exact ⟨[], by simp, by simp, .dot⟩
    · obtain ⟨a, rfl⟩ := List.head?_eq_some_iff.mp hafter
      rcases hempty with rfl | rfl
      · exact absurd rfl hs
      · by_cases ha : a.head? = some '/'
        · obtain ⟨a', rfl⟩ := List.head?_eq_some_iff.mp ha
          exact ⟨'.' :: '/' :: a', by simp, by simp, .respelled (.doubled ['.'] a')⟩
        · refine ⟨a, ?_, ha, .led ha⟩
          simp only [List.length_append, List.length_cons]
          omega
  · obtain ⟨b, rfl⟩ := List.getLast?_eq_some_iff.mp hbefore
    have hb : b ≠ [] := by
      rintro rfl
      exact hs rfl
    obtain ⟨c, b', rfl⟩ := List.exists_cons_of_ne_nil hb
    have hhead (t : List Char) : (c :: b' ++ t).head? ≠ some '/' := hs
    rcases hafter with rfl | hafter
    · refine ⟨c :: b', by simp, hs, ?_⟩
      rcases hempty with rfl | rfl
      · simpa using Respaced.respelled (.trailed (c :: b') hb)
      · simpa using Respaced.dotted hb
    · obtain ⟨a, rfl⟩ := List.head?_eq_some_iff.mp hafter
      refine ⟨c :: b' ++ '/' :: a, ?_, hhead _, .respelled ?_⟩
      · simp only [List.length_append, List.length_cons]
        omega
      rcases hempty with rfl | rfl
      · simpa using Respelled.doubled (c :: b') a
      · simpa using Respelled.dotted (c :: b') a

theorem eqvGen_loose (s : List Char) (hs : s.head? ≠ some '/') :
    Relation.EqvGen Respaced ⟨String.ofList s⟩ (loose (solid s)) := by
  -- by the length, which every step makes less
  induction hn : s.length using Nat.strongRecOn generalizing s with
  | _ n ih =>
    by_cases hne : s = []
    · subst hne
      exact .refl _
    by_cases hall : ∀ part ∈ Text.splitOn '/' s, part ≠ [] ∧ part ≠ ['.']
    · have hsolid : solid s = Text.splitOn '/' s := by
        rw [solid, List.filter_eq_self]
        simpa using hall
      rw [hsolid, loose, Text.intercalate_splitOn]
      exact .refl _
    · push Not at hall
      obtain ⟨part, hpart, hvacant⟩ := hall
      have hempty : part = [] ∨ part = ['.'] := by
        by_cases h : part = []
        · exact .inl h
        · exact .inr (hvacant h)
      obtain ⟨s', hless, hs', hstep⟩ := exists_respaced hs hne (Text.mem_splitOn.mp hpart) hempty
      have hsolid := hstep.solid_eq
      rw [String.toList_ofList, String.toList_ofList] at hsolid
      rw [hsolid]
      exact .trans _ _ _ (.rel _ _ hstep) (ih s'.length (hn ▸ hless) s' hs' rfl)

/-- Relative paths have the same segments that say something just where slashes and dots that say nothing
are all they differ in. -/
theorem eqvGen_iff_solid (hp : ¬ p.isAbsolute) (hq : ¬ q.isAbsolute) :
    Relation.EqvGen Respaced p q ↔ solid p.text.toList = solid q.text.toList := by
  constructor
  · exact solid_eq_of_eqvGen
  · intro h
    have hloose := eqvGen_loose p.text.toList fun hhead => hp (isAbsolute_iff.mpr hhead)
    have hloose' := eqvGen_loose q.text.toList fun hhead => hq (isAbsolute_iff.mpr hhead)
    rw [String.ofList_toList] at hloose hloose'
    rw [← h] at hloose'
    exact .trans _ _ _ hloose (.symm _ _ hloose')

theorem part_of_rooted (h : ∀ segment ∈ segments, IsSolid segment) (hnil : segments ≠ [])
    {part : List Char} (hpart : Text.IsPart '/' (rooted segments).tail part) : IsSolid part := by
  obtain ⟨t, ht⟩ := List.head?_eq_some_iff.mp (head?_rooted segments)
  have hsplit := splitOn_flatMap h
  rw [rooted, if_neg hnil] at ht
  have hbehind : Text.splitOn '/' ('/' :: t) = [] :: Text.splitOn '/' t := by simp [Text.splitOn]
  rw [ht, hbehind, List.cons.injEq] at hsplit
  rw [rooted, if_neg hnil, ht, List.tail_cons, ← Text.mem_splitOn, hsplit.2] at hpart
  exact h part hpart

/-- What a path comes to from a working directory. -/
structure Resolves (wd raw p : Path) : Prop where
  absolute : p.isAbsolute
  place : p.same (wd / raw)
  again : ∀ wd', resolve wd' p = p
  /-- A path from the root is what it was given as. -/
  given : raw.isAbsolute → p = raw ∧ wd / raw = raw
  /-- A relative one has a slash at its end only where it is the root, -/
  bare : ¬ raw.isAbsolute → p.text.toList.getLast? = some '/' → p.text = "/"
  /-- and no segment behind its first slash is empty or a dot, -/
  plain : ¬ raw.isAbsolute → p.text ≠ "/" →
    ∀ part, Text.IsPart '/' p.text.toList.tail part → part ≠ [] ∧ part ≠ ['.']
  /-- while every other segment stays where it was, `..` among them. -/
  keeps : ¬ raw.isAbsolute → solid p.text.toList = solid wd.text.toList ++ solid raw.text.toList

theorem resolves (hwd : wd.isAbsolute) (raw : Path) : Resolves wd raw (resolve wd raw) := by
  have hsolid : ∀ segment ∈ solid wd.text.toList ++ solid raw.text.toList, IsSolid segment :=
    fun segment hsegment =>
      (List.mem_append.mp hsegment).elim isSolid_of_mem_solid isSolid_of_mem_solid
  have hroot (hraw : ¬ raw.isAbsolute) (hnil : solid wd.text.toList ++ solid raw.text.toList = []) :
      (resolve wd raw).text = "/" := by
    rw [← String.toList_inj, toList_resolve hwd hraw, hnil]
    rfl
  constructor
  · exact isAbsolute_resolve hwd raw
  · exact same_resolve hwd raw
  · exact fun wd' => resolve_of_absolute (isAbsolute_resolve hwd raw)
  · exact fun hraw => ⟨resolve_of_absolute hraw, join_of_absolute hraw⟩
  · intro hraw hlast
    by_contra hne
    rw [toList_resolve hwd hraw, rooted, if_neg fun hnil => hne (hroot hraw hnil)] at hlast
    exact getLast?_flatMap hsolid hlast
  · intro hraw hne part hpart
    rw [toList_resolve hwd hraw] at hpart
    obtain ⟨hnonempty, hdot, -⟩ := part_of_rooted hsolid (fun hnil => hne (hroot hraw hnil)) hpart
    exact ⟨hnonempty, hdot⟩
  · exact fun hraw => solid_resolve hwd hraw

end Path

open Session Attempt Cli

variable {σ : Type}

/-- A project that is listed under one path is the one that is found for another path, where one is asked
for and where one is to be closed. -/
structure FoundAs (env : Environment σ) (path listedAs : Path) : Prop where
  lookup : ∀ projects, findProject path projects = findProject listedAs projects
  ensuring : ∀ w, Returns env w (ensureProjectOpen path).run fun t r =>
    ∀ listed, ⟨.openProjects, .ok listed⟩ ∈ t.exchanges → (∃ p ∈ listed, p.path.same listedAs) →
      ∃ p, findProject listedAs listed = some p ∧ r = .ok p ∧ ∀ x ∈ t.exchanges, x.call = .openProjects
  closing : ∀ w, Returns env w (closeProject path).run fun t _ =>
    ∀ listed, ⟨.openProjects, .ok listed⟩ ∈ t.exchanges → (∃ p ∈ listed, p.path.same listedAs) →
      ∃ p, findProject listedAs listed = some p ∧ ∃ answer, ⟨.closeProject p, answer⟩ ∈ t.exchanges

theorem findProject_congr {p q : Path} (h : p.same q) (projects : List Project) :
    findProject p projects = findProject q projects := by
  rw [findProject, findProject]
  congr 1
  funext project
  rw [Path.same, Path.same, Path.same_iff.mp h]

theorem findProject_ne_none {path : Path} {listed : List Project} (h : ∃ p ∈ listed, p.path.same path) :
    findProject path listed ≠ none := by
  obtain ⟨p, hp, hsame⟩ := h
  rw [findProject, Ne, List.find?_eq_none]
  exact fun hnone => hnone p hp hsame

theorem Attempt.Ensuring.reuses {path : Path} {xs : List Exchange} {r : Except OrchestrationError Project}
    (h : Ensuring path xs r) {listed : List Project} (hlisted : ⟨.openProjects, .ok listed⟩ ∈ xs)
    (hopen : ∃ p ∈ listed, p.path.same path) :
    ∃ p, findProject path listed = some p ∧ r = .ok p ∧ ∀ x ∈ xs, x.call = .openProjects := by
  have hfind := findProject_ne_none hopen
  cases h with
  | unlisted e e' => simp at hlisted
  | @reused listed' project found =>
    obtain rfl : listed = listed' := by simpa using hlisted
    exact ⟨project, found, rfl, by simp⟩
  | @refused listed' missing e e' =>
    obtain rfl : listed = listed' := by simpa using hlisted
    exact absurd missing hfind
  | @opened listed' missing project =>
    obtain rfl : listed = listed' := by simpa using hlisted
    exact absurd missing hfind

theorem Attempt.Closing.reaches {path : Path} {xs : List Exchange} {r : Except EngineError Bool}
    (h : Closing path xs r) {listed : List Project} (hlisted : ⟨.openProjects, .ok listed⟩ ∈ xs)
    (hopen : ∃ p ∈ listed, p.path.same path) :
    ∃ p, findProject path listed = some p ∧ ∃ answer, ⟨.closeProject p, answer⟩ ∈ xs := by
  have hfind := findProject_ne_none hopen
  cases h with
  | unlisted e => simp at hlisted
  | @absent listed' missing =>
    obtain rfl : listed = listed' := by simpa using hlisted
    exact absurd missing hfind
  | @refused listed' project found e =>
    obtain rfl : listed = listed' := by simpa using hlisted
    exact ⟨project, found, .error e, by simp⟩
  | @closed listed' project found =>
    obtain rfl : listed = listed' := by simpa using hlisted
    exact ⟨project, found, .ok (), by simp⟩

theorem foundAs_of_same {path listedAs : Path} (env : Environment σ) (h : path.same listedAs) :
    FoundAs env path listedAs := by
  have hopen {listed : List Project} (hlisted : ∃ p ∈ listed, p.path.same listedAs) :
      ∃ p ∈ listed, p.path.same path := by
    obtain ⟨p, hp, hsame⟩ := hlisted
    exact ⟨p, hp, Path.same_trans hsame (Path.same_symm h)⟩
  constructor
  · exact findProject_congr h
  · intro w
    apply (returns_ensuring path).mono
    intro t r h listed hlisted hlistedAs
    obtain ⟨hensuring, -⟩ := h
    rw [← findProject_congr h]
    exact hensuring.reuses hlisted (hopen hlistedAs)
  · intro w
    apply (returns_closing path).mono
    intro t r hclosing listed hlisted hlistedAs
    rw [← findProject_congr h]
    exact hclosing.reaches hlisted (hopen hlistedAs)

/-- The path that a command goes by is the value its flag was given last, as seen from the directory. -/
theorem project_of_parse {wd path : Path} {arguments : List String}
    (h : parseClose (.ok wd) arguments = .ok path ∨
      ∃ request, parseRun (.ok wd) arguments = .ok request ∧ request.project = path) :
    ∃ pairs raw, arguments = spell pairs ∧ lastRaw .project pairs = some raw ∧
      path = Path.resolve wd ⟨raw⟩ := by
  have hgiven {values : FlagValues} (hvalues : values.project = some path) {pairs : List FlagPair}
      (hreads : Reads wd pairs values) :
      ∃ raw, lastRaw .project pairs = some raw ∧ path = Path.resolve wd ⟨raw⟩ := by
    have hproject := hreads.project
    rw [hvalues, eq_comm, Option.map_eq_some_iff] at hproject
    obtain ⟨raw, hraw, hpath⟩ := hproject
    exact ⟨raw, hraw, hpath.symm⟩
  rcases h with h | ⟨request, h, rfl⟩
  · obtain ⟨pairs, rfl, -⟩ := (obeys_close.accepts wd arguments).mp ⟨path, h⟩
    obtain ⟨raw, hraw, hpath⟩ := hgiven rfl (obeys_close.reads wd pairs path h)
    exact ⟨pairs, raw, rfl, hraw, hpath⟩
  · obtain ⟨pairs, rfl, -⟩ := (obeys_run.accepts wd arguments).mp ⟨request, h⟩
    obtain ⟨raw, hraw, hpath⟩ := hgiven rfl (obeys_run.reads wd pairs request h)
    exact ⟨pairs, raw, rfl, hraw, hpath⟩

/-- From a working directory that is known a path comes to one path from the root. Relative spellings come
to the same text just where they differ in slashes and dots that say nothing, and with that text the open
projects are found that are listed under the joined path. -/
theorem paths_resolve (wd : Path) (hwd : wd.isAbsolute) (env : Environment σ) :
    (∀ raw, absolutePath (.ok wd) raw = .ok (Path.resolve wd ⟨raw⟩)) ∧
    (∀ raw, Path.Resolves wd raw (Path.resolve wd raw)) ∧
    (∀ raw raw' : Path, ¬ raw.isAbsolute → ¬ raw'.isAbsolute →
      (Path.resolve wd raw = Path.resolve wd raw' ↔ Relation.EqvGen Path.Respaced raw raw')) ∧
    (∀ raw, FoundAs env (Path.resolve wd raw) (wd / raw)) ∧
    ∀ arguments path, (parseClose (.ok wd) arguments = .ok path ∨
        ∃ request, parseRun (.ok wd) arguments = .ok request ∧ request.project = path) →
      ∃ pairs raw, arguments = spell pairs ∧ lastRaw .project pairs = some raw ∧
        path = Path.resolve wd ⟨raw⟩ := by
  refine ⟨absolutePath_ok wd, Path.resolves hwd, ?_, fun raw => foundAs_of_same env (Path.same_resolve hwd raw),
    fun arguments path => project_of_parse⟩
  intro raw raw' hraw hraw'
  rw [Path.resolve_eq_iff hwd hraw hraw', Path.eqvGen_iff_solid hraw hraw']

/-- A dot in front and a slash at the end make no difference to what the shop is found as. -/
theorem shop_resolves : let wd : Path := ⟨"/work/till/"⟩
    wd.isAbsolute ∧ Path.Resolves wd ⟨"./../shop/"⟩ (Path.resolve wd ⟨"./../shop/"⟩) ∧
      Path.resolve wd ⟨"./../shop/"⟩ = Path.resolve wd ⟨"../shop"⟩ ∧
      FoundAs Desk.environment (Path.resolve wd ⟨"../shop"⟩) (wd / ⟨"../shop"⟩) := by
  have hwd : (⟨"/work/till/"⟩ : Path).isAbsolute := by decide
  obtain ⟨-, hresolves, hsame, hfound, -⟩ := paths_resolve ⟨"/work/till/"⟩ hwd Desk.environment
  refine ⟨hwd, hresolves _, ?_, hfound _⟩
  rw [hsame _ _ (by decide) (by decide)]
  have hled : Path.Respaced ⟨"./../shop/"⟩ ⟨"../shop/"⟩ :=
    .led (a := ['.', '.', '/', 's', 'h', 'o', 'p', '/']) (by decide)
  have htrailed : Path.Respaced ⟨"../shop/"⟩ ⟨"../shop"⟩ :=
    .respelled (.trailed ['.', '.', '/', 's', 'h', 'o', 'p'] (by decide))
  exact .trans _ _ _ (.rel _ _ hled) (.rel _ _ htrailed)

end GuardedRun
