import GuardedRun.Cli.Flags
import GuardedRun.Proofs.Splitting
import Mathlib.Data.List.Induction
import Mathlib.Data.List.Sort

/-! Arguments as pairs of a flag and its value. What a list of pairs comes to is said without reading
them in order: of a flag with one value its last pair counts, and the test cases are those that any pair
names. Reading the arguments from the left gives just that. -/

namespace GuardedRun

/-- Sets with the same members are equal. -/
theorem NameSet.ext_mem {kind : NameKind} {s t : NameSet kind} (h : ∀ name, name ∈ s ↔ name ∈ t) :
    s = t := by
  have hanti : Std.Antisymm fun a b : Name kind => a.text < b.text :=
    ⟨fun a b hab hba => absurd (String.lt_trans hab hba) (String.lt_irrefl _)⟩
  have hirrefl : Std.Irrefl fun a b : Name kind => a.text < b.text :=
    ⟨fun a => String.lt_irrefl a.text⟩
  have hnames : s.names = t.names := s.ascending.eq_of_mem_iff t.ascending h
  cases s
  cases t
  simpa using hnames

namespace Cli

/-- A flag and the value it is given. -/
structure FlagPair where
  flag : Flag
  raw : String

/-- The arguments that some pairs are written as. -/
def spell (pairs : List FlagPair) : List String := pairs.flatMap fun pair => [pair.flag.text, pair.raw]

/-- The value that a flag is given last. -/
def lastRaw (flag : Flag) (pairs : List FlagPair) : Option String :=
  (pairs.filter (·.flag = flag)).getLast?.map (·.raw)

/-- A text is what is left of a piece between commas once its blanks are taken off. -/
def IsSegment (raw text : String) : Prop :=
  text ≠ "" ∧ ∃ part, Text.IsPart ',' raw.toList part ∧ text = String.ofList (Text.trimChars part)

namespace FlagPair

/-- The pair asks for the test case of a name. -/
def Names (pair : FlagPair) (text : String) : Prop :=
  pair.flag = .testCase ∧ text = pair.raw ∨ pair.flag = .testCases ∧ IsSegment pair.raw text

/-- Where names are expected the value gives valid ones. -/
def Valid (pair : FlagPair) : Prop :=
  match pair.flag with
  | .project | .dataDir | .reportDir => True
  | .config | .testSet | .testCase => nameFault? pair.raw = none
  | .testCases => ∀ text, IsSegment pair.raw text → nameFault? text = none

end FlagPair

/-- The values are those that some pairs give; paths are seen from a working directory. -/
structure Reads (workingDirectory : Path) (pairs : List FlagPair) (values : FlagValues) : Prop where
  project : values.project = (lastRaw .project pairs).map (Path.resolve workingDirectory ⟨·⟩)
  config : values.config.map (·.text) = lastRaw .config pairs
  testCases : ∀ name, name ∈ values.testCases ↔ ∃ pair ∈ pairs, pair.Names name.text
  testSet : values.testSet.map (·.text) = lastRaw .testSet pairs
  dataDir : values.dataDir = (lastRaw .dataDir pairs).map (Path.resolve workingDirectory ⟨·⟩)
  reportDir : values.reportDir = (lastRaw .reportDir pairs).map (Path.resolve workingDirectory ⟨·⟩)

variable {wd : Path} {directory : Except String Path} {ps pairs : List FlagPair} {pair : FlagPair} {values values' : FlagValues}
  {flag : Flag} {raw text : String} {grammar : Grammar}

theorem spell_append (ps qs : List FlagPair) : spell (ps ++ qs) = spell ps ++ spell qs :=
  List.flatMap_append

theorem Flag.text_injective : Function.Injective Flag.text := by
  intro f g h
  revert h
  cases f <;> cases g <;> decide

theorem spell_injective : Function.Injective spell := by
  intro ps
  induction ps with
  | nil =>
    intro qs h
    cases qs with
    | nil => rfl
    | cons q rest => cases h
  | cons p rest ih =>
    intro qs h
    cases qs with
    | nil => cases h
    | cons q rest' =>
      have hwords : p.flag.text :: p.raw :: spell rest = q.flag.text :: q.raw :: spell rest' := h
      simp only [List.cons.injEq] at hwords
      obtain ⟨hflag, hraw, hrest⟩ := hwords
      have hpair : p = q := by
        cases p
        cases q
        simp_all [Flag.text_injective.eq_iff]
      rw [hpair, ih hrest]

theorem lastRaw_concat (flag : Flag) (ps : List FlagPair) (pair : FlagPair) :
    lastRaw flag (ps ++ [pair]) = if pair.flag = flag then some pair.raw else lastRaw flag ps := by
  by_cases h : pair.flag = flag <;> simp [lastRaw, List.filter_append, h]

theorem lastRaw_eq_none : lastRaw flag pairs = none ↔ ∀ pair ∈ pairs, pair.flag ≠ flag := by
  simp [lastRaw]

theorem mem_segments : text ∈ segments raw ↔ IsSegment raw text := by
  simp only [segments, IsSegment, List.mem_filter, List.mem_map, decide_eq_true_eq, Text.mem_splitOn]
  constructor
  · rintro ⟨⟨part, hpart, rfl⟩, hne⟩
    exact ⟨hne, part, hpart, rfl⟩
  · rintro ⟨hne, part, hpart, rfl⟩
    exact ⟨⟨part, hpart, rfl⟩, hne⟩

theorem parseName_eq_ok {kind : NameKind} {name : Name kind} :
    parseName kind raw = .ok name ↔ raw = name.text := by
  rw [← Name.parse_eq_ok_iff, parseName]
  cases (Name.parse raw : Except NameFault (Name kind)) <;> simp [Except.mapError]

theorem exists_parseName (kind : NameKind) (h : nameFault? raw = none) :
    ∃ name, parseName kind raw = .ok name :=
  ⟨⟨raw, h⟩, parseName_eq_ok.mpr rfl⟩

theorem of_addTestCases {texts : List String} {set set' : NameSet .scenario}
    (h : addTestCases set texts = .ok set') : (∀ text ∈ texts, nameFault? text = none) ∧
      ∀ name, name ∈ set' ↔ name ∈ set ∨ name.text ∈ texts := by
  induction texts generalizing set with
  | nil =>
    cases h
    simp
  | cons text rest ih =>
    rw [addTestCases] at h
    cases hname : parseName .scenario text with
    | error e => rw [hname] at h; cases h
    | ok name =>
      rw [hname] at h
      obtain ⟨hvalid, hmem⟩ := ih h
      obtain rfl := parseName_eq_ok.mp hname
      refine ⟨List.forall_mem_cons.mpr ⟨name.valid, hvalid⟩, fun other => ?_⟩
      rw [hmem, NameSet.mem_insert, List.mem_cons, Name.ext_iff]
      tauto

theorem exists_addTestCases {texts : List String} (set : NameSet .scenario)
    (h : ∀ text ∈ texts, nameFault? text = none) : ∃ set', addTestCases set texts = .ok set' := by
  induction texts generalizing set with
  | nil => exact ⟨set, rfl⟩
  | cons text rest ih =>
    obtain ⟨htext, hrest⟩ := List.forall_mem_cons.mp h
    obtain ⟨name, hname⟩ := exists_parseName .scenario htext
    obtain ⟨set', hset⟩ := ih (set.insert name) hrest
    refine ⟨set', ?_⟩
    rw [addTestCases, hname]
    exact hset

/-- Where the directory is known, every path has a place. -/
theorem absolutePath_ok (wd : Path) (raw : String) :
    absolutePath (.ok wd) raw = .ok (Path.resolve wd ⟨raw⟩) := by
  rw [absolutePath, Path.place]
  by_cases h : (⟨raw⟩ : Path).isAbsolute
  · rw [if_pos h, Path.resolve, if_pos h]
    rfl
  · rw [if_neg h]
    rfl

theorem of_parseName {kind : NameKind} {α : Type} {f : Name kind → α} {a : α}
    (h : (do return f (← parseName kind raw)) = .ok a) : ∃ name, raw = name.text ∧ a = f name := by
  cases hname : parseName kind raw with
  | error e => rw [hname] at h; cases h
  | ok name =>
    rw [hname] at h
    cases h
    exact ⟨name, parseName_eq_ok.mp hname, rfl⟩

theorem of_takeTestCases {texts : List String}
    (h : (do return { values with testCases := ← addTestCases values.testCases texts }) =
      .ok values') :
    ∃ set, addTestCases values.testCases texts = .ok set ∧ values' = { values with testCases := set } := by
  cases hset : addTestCases values.testCases texts with
  | error e => rw [hset] at h; cases h
  | ok set =>
    rw [hset] at h
    cases h
    exact ⟨set, rfl, rfl⟩

/-- Pairs give one value to each flag. -/
theorem Reads.unique (h : Reads wd pairs values) (h' : Reads wd pairs values') : values = values' := by
  have hname {kind : NameKind} : Function.Injective fun name : Name kind => name.text :=
    fun _ _ => Name.ext
  have hproject := h.project.trans h'.project.symm
  have hconfig := Option.map_injective hname (h.config.trans h'.config.symm)
  have htestCases := NameSet.ext_mem fun name => (h.testCases name).trans (h'.testCases name).symm
  have htestSet := Option.map_injective hname (h.testSet.trans h'.testSet.symm)
  have hdataDir := h.dataDir.trans h'.dataDir.symm
  have hreportDir := h.reportDir.trans h'.reportDir.symm
  cases values
  cases values'
  simp_all

theorem Reads.start (wd : Path) : Reads wd [] {} where
  project := rfl
  config := rfl
  testCases := by simp
  testSet := rfl
  dataDir := rfl
  reportDir := rfl

theorem exists_names_concat (ps : List FlagPair) (pair : FlagPair) (text : String) :
    (∃ p ∈ ps ++ [pair], p.Names text) ↔ (∃ p ∈ ps, p.Names text) ∨ pair.Names text := by
  simp [or_and_right, exists_or]

/-- Taking in a value is taking in one more pair, and it succeeds only where the value is valid. -/
theorem Reads.take (h : Reads wd ps values)
    (htake : values.take (.ok wd) pair.raw pair.flag = .ok values') :
    pair.Valid ∧ Reads wd (ps ++ [pair]) values' := by
  obtain ⟨flag, raw⟩ := pair
  -- what a pair of one flag says, no pair of another flag takes back
  have hkept (flag' : Flag) (hne : flag ≠ flag') :
      lastRaw flag' (ps ++ [⟨flag, raw⟩]) = lastRaw flag' ps := by
    rw [lastRaw_concat, if_neg hne]
  have hset : lastRaw flag (ps ++ [⟨flag, raw⟩]) = some raw := by
    rw [lastRaw_concat, if_pos rfl]
  have hnames (name : ScenarioName) (hflag : flag ≠ .testCase ∧ flag ≠ .testCases) :
      name ∈ values.testCases ↔ ∃ pair ∈ ps ++ [⟨flag, raw⟩], pair.Names name.text := by
    rw [exists_names_concat, h.testCases]
    simp [FlagPair.Names, hflag]
  cases flag with
  | project | dataDir | reportDir =>
    rw [FlagValues.take, absolutePath_ok] at htake
    cases htake
    refine ⟨trivial, ?_⟩
    constructor
    case testCases => exact fun name => hnames name (by decide)
    all_goals simp [hset, hkept, h.project, h.config, h.testSet, h.dataDir, h.reportDir]
  | config | testSet =>
    obtain ⟨name, rfl, rfl⟩ := of_parseName htake
    refine ⟨name.valid, ?_⟩
    constructor
    case testCases => exact fun other => hnames other (by decide)
    all_goals simp [hset, hkept, h.project, h.config, h.testSet, h.dataDir, h.reportDir]
  | testCase =>
    obtain ⟨set, hadd, rfl⟩ := of_takeTestCases htake
    obtain ⟨hvalid, hmem⟩ := of_addTestCases hadd
    refine ⟨hvalid raw List.mem_cons_self, ?_⟩
    constructor
    case testCases =>
      intro name
      rw [exists_names_concat, hmem, h.testCases]
      simp [FlagPair.Names]
    all_goals simp [hkept, h.project, h.config, h.testSet, h.dataDir, h.reportDir]
  | testCases =>
    obtain ⟨set, hadd, rfl⟩ := of_takeTestCases htake
    obtain ⟨hvalid, hmem⟩ := of_addTestCases hadd
    refine ⟨fun text htext => hvalid text (mem_segments.mpr htext), ?_⟩
    constructor
    case testCases =>
      intro name
      rw [exists_names_concat, hmem, h.testCases, mem_segments]
      simp [FlagPair.Names]
    all_goals simp [hkept, h.project, h.config, h.testSet, h.dataDir, h.reportDir]

/-- A valid value is taken in. -/
theorem exists_take (wd : Path) (values : FlagValues) (h : pair.Valid) :
    ∃ values', values.take (.ok wd) pair.raw pair.flag = .ok values' := by
  obtain ⟨flag, raw⟩ := pair
  cases flag with
  | project | dataDir | reportDir => exact ⟨_, by rw [FlagValues.take, absolutePath_ok]; rfl⟩
  | config =>
    obtain ⟨name, hname⟩ := exists_parseName .configuration h
    exact ⟨_, by rw [FlagValues.take, hname]; rfl⟩
  | testSet =>
    obtain ⟨name, hname⟩ := exists_parseName .testSet h
    exact ⟨_, by rw [FlagValues.take, hname]; rfl⟩
  | testCase =>
    obtain ⟨set, hset⟩ := exists_addTestCases values.testCases (List.forall_mem_singleton.mpr h)
    exact ⟨_, by rw [FlagValues.take, hset]; rfl⟩
  | testCases =>
    obtain ⟨set, hset⟩ := exists_addTestCases values.testCases fun text htext =>
      h text (mem_segments.mp htext)
    exact ⟨_, by rw [FlagValues.take, hset]; rfl⟩

namespace Grammar

theorem flag?_eq_some {argument : String} :
    grammar.flag? argument = some flag ↔ flag ∈ grammar.allowed ∧ argument = flag.text := by
  rw [flag?]
  constructor
  · intro h
    have htext := List.find?_some h
    exact ⟨List.mem_of_find?_eq_some h, (of_decide_eq_true htext).symm⟩
  · rintro ⟨hallowed, rfl⟩
    cases hfound : grammar.allowed.find? (·.text = flag.text) with
    | none =>
      have hnone := List.find?_eq_none.mp hfound flag hallowed
      simp at hnone
    | some other =>
      -- the flag that is found is written the same, and no two flags are
      have htext := List.find?_some hfound
      rw [Flag.text_injective (of_decide_eq_true htext)]

/-- A pair of a flag that is allowed is taken in, and then the rest is read. -/
theorem parse_pair (pair : FlagPair) (directory : Except String Path) (values : FlagValues)
    (hallowed : pair.flag ∈ grammar.allowed) (rest : List String) :
    grammar.parse directory values (pair.flag.text :: pair.raw :: rest) =
      values.take directory pair.raw pair.flag >>= fun values => grammar.parse directory values rest := by
  rw [parse, flag?_eq_some.mpr ⟨hallowed, rfl⟩]

theorem parse_spell_append (directory : Except String Path) (values : FlagValues)
    (hallowed : ∀ pair ∈ ps, pair.flag ∈ grammar.allowed) (rest : List String) :
    grammar.parse directory values (spell ps ++ rest) =
      grammar.parse directory values (spell ps) >>= fun values => grammar.parse directory values rest := by
  induction ps generalizing values with
  | nil => rfl
  | cons pair ps ih =>
    obtain ⟨hpair, hps⟩ := List.forall_mem_cons.mp hallowed
    have hwords : spell (pair :: ps) = pair.flag.text :: pair.raw :: spell ps := rfl
    rw [hwords, List.cons_append, List.cons_append, parse_pair pair directory values hpair,
      parse_pair pair directory values hpair, bind_assoc]
    congr 1
    funext values'
    exact ih values' hps

theorem parse_spell_concat (directory : Except String Path) (values : FlagValues)
    (hallowed : ∀ p ∈ ps ++ [pair], p.flag ∈ grammar.allowed) :
    grammar.parse directory values (spell (ps ++ [pair])) =
      grammar.parse directory values (spell ps) >>= fun values =>
        values.take directory pair.raw pair.flag := by
  obtain ⟨hps, hpair⟩ := List.forall_mem_append.mp hallowed
  rw [spell_append, parse_spell_append directory values hps]
  congr 1
  funext values'
  have hlast := parse_pair pair directory values' (hpair pair List.mem_cons_self) []
  rw [show spell [pair] = [pair.flag.text, pair.raw] from rfl, hlast]
  cases values'.take directory pair.raw pair.flag <;> rfl

/-- Arguments that are read are pairs of flags that are allowed. -/
theorem spelled_of_parse {arguments : List String}
    (h : grammar.parse directory values arguments = .ok values') :
    ∃ pairs, arguments = spell pairs ∧ ∀ pair ∈ pairs, pair.flag ∈ grammar.allowed := by
  -- along the reading; the values taken in so far play no part in what is spelled
  induction values, arguments using parse.induct grammar with
  | case1 values => exact ⟨[], rfl, List.forall_mem_nil _⟩
  | case2 values argument rest hnone =>
    rw [parse, hnone] at h
    cases h
  | case3 values argument flag hsome =>
    rw [parse, hsome] at h
    cases h
  | case4 values argument flag hsome raw rest ih =>
    obtain ⟨hallowed, rfl⟩ := flag?_eq_some.mp hsome
    rw [parse, hsome] at h
    cases htake : values.take directory raw flag with
    | error e => simp only [htake, bind, Except.bind] at h; cases h
    | ok values₁ =>
      simp only [htake, bind, Except.bind] at h
      obtain ⟨pairs, rfl, hpairs⟩ := ih values₁ h
      exact ⟨⟨flag, raw⟩ :: pairs, rfl, List.forall_mem_cons.mpr ⟨hallowed, hpairs⟩⟩

/-- Pairs that are read are valid, and the values are theirs. -/
theorem reads_of_parse (hallowed : ∀ pair ∈ pairs, pair.flag ∈ grammar.allowed)
    (h : grammar.parse (.ok wd) {} (spell pairs) = .ok values) :
    (∀ pair ∈ pairs, pair.Valid) ∧ Reads wd pairs values := by
  -- the last pair is taken in by what the ones before it have come to
  induction pairs using List.reverseRecOn generalizing values with
  | nil =>
    cases h
    exact ⟨List.forall_mem_nil _, Reads.start wd⟩
  | append_singleton ps pair ih =>
    rw [parse_spell_concat (.ok wd) {} hallowed] at h
    obtain ⟨hps, -⟩ := List.forall_mem_append.mp hallowed
    cases hread : grammar.parse (.ok wd) {} (spell ps) with
    | error e => rw [hread] at h; cases h
    | ok values₁ =>
      rw [hread] at h
      obtain ⟨hvalid, hreads⟩ := ih hps hread
      obtain ⟨hpair, hreads'⟩ := hreads.take h
      exact ⟨List.forall_mem_append.mpr ⟨hvalid, List.forall_mem_singleton.mpr hpair⟩, hreads'⟩

/-- Valid pairs are read. -/
theorem exists_parse (wd : Path) (hallowed : ∀ pair ∈ pairs, pair.flag ∈ grammar.allowed)
    (hvalid : ∀ pair ∈ pairs, pair.Valid) :
    ∃ values, grammar.parse (.ok wd) {} (spell pairs) = .ok values := by
  induction pairs using List.reverseRecOn with
  | nil => exact ⟨{}, rfl⟩
  | append_singleton ps pair ih =>
    obtain ⟨hps, -⟩ := List.forall_mem_append.mp hallowed
    obtain ⟨hvalid', hpair⟩ := List.forall_mem_append.mp hvalid
    obtain ⟨values₁, hread⟩ := ih hps hvalid'
    obtain ⟨values, htake⟩ := exists_take wd values₁ (hpair pair List.mem_cons_self)
    refine ⟨values, ?_⟩
    rw [parse_spell_concat (.ok wd) {} hallowed, hread]
    exact htake

/-- What is read are pairs of allowed flags with valid values, and nothing else is. -/
theorem parse_eq_ok {arguments : List String} :
    grammar.parse (.ok wd) {} arguments = .ok values ↔ ∃ pairs, arguments = spell pairs ∧
      (∀ pair ∈ pairs, pair.flag ∈ grammar.allowed) ∧ (∀ pair ∈ pairs, pair.Valid) ∧
        Reads wd pairs values := by
  constructor
  · intro h
    obtain ⟨pairs, rfl, hallowed⟩ := spelled_of_parse h
    exact ⟨pairs, rfl, hallowed, reads_of_parse hallowed h⟩
  · rintro ⟨pairs, rfl, hallowed, hvalid, hreads⟩
    obtain ⟨values', h⟩ := exists_parse wd hallowed hvalid
    obtain ⟨-, hreads'⟩ := reads_of_parse hallowed h
    rw [h, hreads'.unique hreads]

end Grammar

end Cli

end GuardedRun
