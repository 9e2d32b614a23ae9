import GuardedRun.Proofs.FlagPairs

/-! The grammar of the commands' arguments. A command takes pairs of its own flags with valid values, the
required ones among them, and nothing else; what it makes of them depends on their order only where one
flag with one value is given twice. -/

namespace GuardedRun.Cli

/-- The flag has one value, and a later one takes the place of an earlier one. -/
def Flag.Single (flag : Flag) : Prop := flag ≠ .testCase ∧ flag ≠ .testCases

instance (flag : Flag) : Decidable flag.Single :=
  inferInstanceAs (Decidable (flag ≠ .testCase ∧ flag ≠ .testCases))

/-- The pairs make up arguments of a command. -/
structure Fits (grammar : Grammar) (required : List Flag) (pairs : List FlagPair) : Prop where
  allowed : ∀ pair ∈ pairs, pair.flag ∈ grammar.allowed
  valid : ∀ pair ∈ pairs, pair.Valid
  required : ∀ flag ∈ required, ∃ raw, ⟨flag, raw⟩ ∈ pairs

/-- The paths among the values. -/
def FlagValues.paths (values : FlagValues) : List Path :=
  values.project.toList ++ values.dataDir.toList ++ values.reportDir.toList

/-- Pairs that give the values. -/
def FlagValues.written (values : FlagValues) : List FlagPair :=
  values.project.toList.map (⟨.project, ·.text⟩) ++ values.config.toList.map (⟨.config, ·.text⟩) ++
    values.testCases.names.map (⟨.testCase, ·.text⟩) ++ values.testSet.toList.map (⟨.testSet, ·.text⟩) ++
    values.dataDir.toList.map (⟨.dataDir, ·.text⟩) ++ values.reportDir.toList.map (⟨.reportDir, ·.text⟩)

/-- What the flags of a run are given. -/
def runValues (request : ExecutionRequest) : FlagValues where
  project := some request.project
  config := some request.configuration
  testCases := request.testCases
  testSet := request.testSet
  dataDir := some request.dataDir
  reportDir := some request.reportDir

def reportValues (request : ReportRequest) : FlagValues where
  project := some request.project
  config := some request.configuration
  testSet := request.testSet
  dataDir := request.dataDir
  reportDir := request.reportDir

def closeValues (project : Path) : FlagValues where
  project := some project

/-- A command reads its arguments by a grammar: it accepts what the grammar writes and nothing else, and
takes from it the values that the pairs give. Pairs in another order come to the same if none overtakes one
of its own single flag, and whatever could be asked for with paths from the root can be written. -/
structure Obeys {ρ : Type} (parse : Except String Path → List String → Except FlagError ρ)
    (grammar : Grammar) (required : List Flag) (values : ρ → FlagValues) : Prop where
  accepts : ∀ wd arguments, (∃ r, parse (.ok wd) arguments = .ok r) ↔
    ∃ pairs, arguments = spell pairs ∧ Fits grammar required pairs
  reads : ∀ wd pairs r, parse (.ok wd) (spell pairs) = .ok r → Reads wd pairs (values r)
  permutes : ∀ wd ps qs r, ps.Perm qs →
    (∀ flag : Flag, flag.Single → ps.filter (·.flag = flag) = qs.filter (·.flag = flag)) →
      (parse (.ok wd) (spell ps) = .ok r ↔ parse (.ok wd) (spell qs) = .ok r)
  writes : ∀ wd r, (∀ path ∈ (values r).paths, path.isAbsolute) →
    ∃ arguments, parse (.ok wd) arguments = .ok r

variable {wd : Path} {directory : Except String Path} {ps qs pairs : List FlagPair} {values : FlagValues} {grammar : Grammar}
  {required : List Flag} {arguments : List String} {kind : NameKind}

theorem Fits.perm (h : Fits grammar required ps) (hperm : ps.Perm qs) : Fits grammar required qs where
  allowed pair hpair := h.allowed pair (hperm.mem_iff.mpr hpair)
  valid pair hpair := h.valid pair (hperm.mem_iff.mpr hpair)
  required flag hflag := by
    obtain ⟨raw, hraw⟩ := h.required flag hflag
    exact ⟨raw, hperm.mem_iff.mp hraw⟩

theorem Reads.perm (h : Reads wd ps values) (hperm : ps.Perm qs)
    (hsingle : ∀ flag : Flag, flag.Single → ps.filter (·.flag = flag) = qs.filter (·.flag = flag)) :
    Reads wd qs values := by
  have hlast (flag : Flag) (hflag : flag.Single) : lastRaw flag qs = lastRaw flag ps := by
    rw [lastRaw, lastRaw, hsingle flag hflag]
  constructor
  case testCases =>
    intro name
    rw [h.testCases]
    simp only [hperm.mem_iff]
  · rw [hlast .project (by decide), h.project]
  · rw [hlast .config (by decide), h.config]
  · rw [hlast .testSet (by decide), h.testSet]
  · rw [hlast .dataDir (by decide), h.dataDir]
  · rw [hlast .reportDir (by decide), h.reportDir]

/-- A flag's pairs are all that its last value comes from. -/
theorem lastRaw_append (flag : Flag) (ps qs : List FlagPair) :
    lastRaw flag (ps ++ qs) = (lastRaw flag qs).or (lastRaw flag ps) := by
  rw [lastRaw, List.filter_append, List.getLast?_append, Option.map_or]
  rfl

theorem FlagValues.valid_written (values : FlagValues) : ∀ pair ∈ values.written, pair.Valid := by
  intro pair hpair
  simp only [written, List.mem_append, List.mem_map] at hpair
  rcases hpair with ((((⟨_, _, rfl⟩ | ⟨name, _, rfl⟩) | ⟨name, _, rfl⟩) | ⟨name, _, rfl⟩) | ⟨_, _, rfl⟩) |
    ⟨_, _, rfl⟩
  · trivial
  · exact name.valid
  · exact name.valid
  · exact name.valid
  · trivial
  · trivial

theorem lastRaw_given {α : Type} (flag flag' : Flag) (value : Option α) (text : α → String) :
    lastRaw flag (value.toList.map fun a => ⟨flag', text a⟩) =
      if flag' = flag then value.map text else none := by
  cases value <;> by_cases h : flag' = flag <;> simp [lastRaw, h]

theorem lastRaw_each {flag : Flag} (hflag : flag.Single) (names : List (Name kind)) :
    lastRaw flag (names.map (⟨.testCase, ·.text⟩)) = none := by
  rw [lastRaw_eq_none]
  intro pair hpair heq
  obtain ⟨name, -, rfl⟩ := List.mem_map.mp hpair
  exact hflag.1 heq.symm

theorem names_written (name : ScenarioName) :
    (∃ pair ∈ values.written, pair.Names name.text) ↔ name ∈ values.testCases := by
  constructor
  · rintro ⟨pair, hpair, hnames⟩
    simp only [FlagValues.written, List.mem_append, List.mem_map] at hpair
    rcases hpair with ((((⟨_, _, rfl⟩ | ⟨_, _, rfl⟩) | ⟨other, hother, rfl⟩) | ⟨_, _, rfl⟩) | ⟨_, _, rfl⟩) |
      ⟨_, _, rfl⟩
    all_goals simp only [FlagPair.Names, reduceCtorEq, false_and, or_false, true_and] at hnames
    obtain rfl : name = other := Name.ext hnames
    exact hother
  · intro hname
    refine ⟨⟨.testCase, name.text⟩, ?_, .inl ⟨rfl, rfl⟩⟩
    simp only [FlagValues.written, List.mem_append]
    exact .inl (.inl (.inl (.inr (List.mem_map_of_mem hname))))

/-- What is written for some values is read as these values. -/
theorem Reads.written (hpaths : ∀ path ∈ values.paths, path.isAbsolute) :
    Reads wd values.written values := by
  have hpath (value : Option Path) (h : ∀ path, value = some path → path.isAbsolute) :
      value = (value.map (·.text)).map (Path.resolve wd ⟨·⟩) := by
    cases value with
    | none => rfl
    | some path => simp [Path.resolve, h path rfl]
  simp only [FlagValues.paths, List.mem_append, Option.mem_toList, or_assoc] at hpaths
  have hlast (flag : Flag) (hflag : flag.Single) := lastRaw_each hflag values.testCases.names
  constructor
  case testCases => exact fun name => (names_written name).symm
  case config => simp [FlagValues.written, lastRaw_append, lastRaw_given, hlast .config (by decide)]
  case testSet => simp [FlagValues.written, lastRaw_append, lastRaw_given, hlast .testSet (by decide)]
  case project =>
    have hraw : lastRaw .project values.written = values.project.map (·.text) := by
      simp [FlagValues.written, lastRaw_append, lastRaw_given, hlast .project (by decide)]
    rw [hraw, ← hpath values.project fun path h => hpaths path (.inl h)]
  case dataDir =>
    have hraw : lastRaw .dataDir values.written = values.dataDir.map (·.text) := by
      simp [FlagValues.written, lastRaw_append, lastRaw_given, hlast .dataDir (by decide)]
    rw [hraw, ← hpath values.dataDir fun path h => hpaths path (.inr (.inl h))]
  case reportDir =>
    have hraw : lastRaw .reportDir values.written = values.reportDir.map (·.text) := by
      simp [FlagValues.written, lastRaw_append, lastRaw_given, hlast .reportDir (by decide)]
    rw [hraw, ← hpath values.reportDir fun path h => hpaths path (.inr (.inr h))]

/-- Values of flags that are not allowed are not given. -/
theorem lastRaw_of_not_allowed {flag : Flag} (hflag : flag ∉ grammar.allowed)
    (hallowed : ∀ pair ∈ pairs, pair.flag ∈ grammar.allowed) : lastRaw flag pairs = none := by
  rw [lastRaw_eq_none]
  rintro pair hpair rfl
  exact hflag (hallowed pair hpair)

theorem Fits.given {flag : Flag} (h : Fits grammar required pairs) (hflag : flag ∈ required) :
    ∃ raw, lastRaw flag pairs = some raw := by
  obtain ⟨raw, hraw⟩ := h.required flag hflag
  rw [← Option.ne_none_iff_exists', Ne, lastRaw_eq_none]
  exact fun hnone => hnone _ hraw rfl

/-- A command that wants nothing but values for its required flags obeys its grammar. -/
theorem obeys_of_values {ρ : Type} {parse : Except String Path → List String → Except FlagError ρ}
    {valuesOf : ρ → FlagValues}
    (hparse : ∀ wd arguments r,
      parse (.ok wd) arguments = .ok r ↔ grammar.parse (.ok wd) {} arguments = .ok (valuesOf r))
    (hrequired : ∀ wd pairs r, Reads wd pairs (valuesOf r) →
      ∀ flag ∈ required, lastRaw flag pairs ≠ none)
    (hmade : ∀ wd pairs values, Fits grammar required pairs → Reads wd pairs values →
      ∃ r, values = valuesOf r)
    (hwritten : ∀ r, ∀ pair ∈ (valuesOf r).written, pair.flag ∈ grammar.allowed) :
    Obeys parse grammar required valuesOf := by
  -- arguments are spelled by one list of pairs only, so what was read is what the given pairs say
  have hread (wd pairs r) (h : parse (.ok wd) (spell pairs) = .ok r) :
      Fits grammar required pairs ∧ Reads wd pairs (valuesOf r) := by
    obtain ⟨pairs', hspell, hallowed, hvalid, hreads⟩ := Grammar.parse_eq_ok.mp ((hparse wd _ r).mp h)
    obtain rfl := spell_injective hspell
    refine ⟨⟨hallowed, hvalid, fun flag hflag => ?_⟩, hreads⟩
    have hgiven := hrequired wd pairs r hreads flag hflag
    rw [Ne, lastRaw_eq_none] at hgiven
    push Not at hgiven
    obtain ⟨⟨_, raw⟩, hpair, rfl⟩ := hgiven
    exact ⟨raw, hpair⟩
  have hmoved (wd ps qs r) (hperm : ps.Perm qs)
      (hsingle : ∀ flag : Flag, flag.Single → ps.filter (·.flag = flag) = qs.filter (·.flag = flag))
      (h : parse (.ok wd) (spell ps) = .ok r) : parse (.ok wd) (spell qs) = .ok r := by
    obtain ⟨hfits, hreads⟩ := hread wd ps r h
    have hfits' := hfits.perm hperm
    exact (hparse wd _ r).mpr
      (Grammar.parse_eq_ok.mpr ⟨qs, rfl, hfits'.allowed, hfits'.valid, hreads.perm hperm hsingle⟩)
  constructor
  case accepts =>
    intro wd arguments
    constructor
    · rintro ⟨r, h⟩
      obtain ⟨pairs, rfl, -⟩ := Grammar.parse_eq_ok.mp ((hparse wd _ r).mp h)
      exact ⟨pairs, rfl, (hread wd pairs r h).1⟩
    · rintro ⟨pairs, rfl, hfits⟩
      obtain ⟨values, hvalues⟩ := Grammar.exists_parse wd hfits.allowed hfits.valid
      obtain ⟨-, hreads⟩ := Grammar.reads_of_parse hfits.allowed hvalues
      obtain ⟨r, rfl⟩ := hmade wd pairs values hfits hreads
      exact ⟨r, (hparse wd _ r).mpr hvalues⟩
  case reads => exact fun wd pairs r h => (hread wd pairs r h).2
  case permutes =>
    refine fun wd ps qs r hperm hsingle => ⟨hmoved wd ps qs r hperm hsingle, ?_⟩
    exact hmoved wd qs ps r hperm.symm fun flag hflag => (hsingle flag hflag).symm
  case writes =>
    intro wd r hpaths
    refine ⟨spell (valuesOf r).written, (hparse wd _ r).mpr (Grammar.parse_eq_ok.mpr ?_)⟩
    exact ⟨_, rfl, hwritten r, FlagValues.valid_written _, Reads.written hpaths⟩

/-- Values of pairs without the flags for test cases name none. -/
theorem Reads.no_testCases (h : Reads wd pairs values)
    (hallowed : ∀ pair ∈ pairs, pair.flag ∈ grammar.allowed)
    (hone : Flag.testCase ∉ grammar.allowed) (hmany : Flag.testCases ∉ grammar.allowed) :
    values.testCases = .empty := by
  apply NameSet.ext_mem
  intro name
  rw [h.testCases]
  constructor
  · rintro ⟨pair, hpair, ⟨hflag, -⟩ | ⟨hflag, -⟩⟩
    · exact absurd (hflag ▸ hallowed pair hpair) hone
    · exact absurd (hflag ▸ hallowed pair hpair) hmany
  · intro hname
    exact absurd hname (NameSet.not_mem_empty name)

/-- What a flag is given is read as its value. -/
theorem Fits.path {flag : Flag} (h : Fits grammar required pairs) (hflag : flag ∈ required)
    {value : Option Path} (hvalue : value = (lastRaw flag pairs).map (Path.resolve wd ⟨·⟩)) :
    ∃ path, value = some path := by
  obtain ⟨raw, hraw⟩ := h.given hflag
  rw [hraw] at hvalue
  exact ⟨_, hvalue⟩

theorem Fits.name {flag : Flag} (h : Fits grammar required pairs) (hflag : flag ∈ required)
    {value : Option (Name kind)} (hvalue : value.map (·.text) = lastRaw flag pairs) :
    ∃ name, value = some name := by
  obtain ⟨raw, hraw⟩ := h.given hflag
  rw [hraw, Option.map_eq_some_iff] at hvalue
  obtain ⟨name, hname, -⟩ := hvalue
  exact ⟨name, hname⟩

theorem parseRun_eq_ok {request : ExecutionRequest} :
    parseRun (.ok wd) arguments = .ok request ↔
      runGrammar.parse (.ok wd) {} arguments = .ok (runValues request) := by
  rw [parseRun]
  cases runGrammar.parse (.ok wd) {} arguments with
  | error e => simp [bind, Except.bind]
  | ok values =>
    obtain ⟨project, config, testCases, testSet, dataDir, reportDir⟩ := values
    cases request
    cases project <;> cases config <;> cases dataDir <;> cases reportDir <;>
      simp [bind, Except.bind, Grammar.require, runValues, pure, Except.pure]

theorem parseReport_eq_ok {request : ReportRequest} :
    parseReport (.ok wd) arguments = .ok request ↔
      reportGrammar.parse (.ok wd) {} arguments = .ok (reportValues request) := by
  rw [parseReport]
  cases hparse : reportGrammar.parse (.ok wd) {} arguments with
  | error e => simp [bind, Except.bind]
  | ok values =>
    -- a report has no place for test cases, so it has to be known that none were read
    obtain ⟨pairs, rfl, hallowed, -, hreads⟩ := Grammar.parse_eq_ok.mp hparse
    have hnone := hreads.no_testCases hallowed (by decide) (by decide)
    obtain ⟨project, config, testCases, testSet, dataDir, reportDir⟩ := values
    obtain rfl : testCases = .empty := hnone
    cases request
    cases project <;> cases config <;>
      simp [bind, Except.bind, Grammar.require, reportValues, pure, Except.pure]

/-- Of a command that takes nothing but a project the pairs give nothing but a project. -/
theorem Reads.only_project (h : Reads wd pairs values)
    (hallowed : ∀ pair ∈ pairs, pair.flag ∈ closeGrammar.allowed) :
    values = { project := values.project } := by
  have hconfig := h.config
  have htestSet := h.testSet
  have hdataDir := h.dataDir
  have hreportDir := h.reportDir
  have htestCases := h.no_testCases hallowed (by decide) (by decide)
  rw [lastRaw_of_not_allowed (by decide) hallowed] at hconfig htestSet hdataDir hreportDir
  obtain ⟨project, config, testCases, testSet, dataDir, reportDir⟩ := values
  simp only [Option.map_eq_none_iff, Option.map_none] at hconfig htestSet hdataDir hreportDir
  subst hconfig htestSet hdataDir hreportDir
  rw [FlagValues.mk.injEq]
  exact ⟨rfl, rfl, htestCases, rfl, rfl, rfl⟩

theorem parseClose_eq_ok {project : Path} :
    parseClose (.ok wd) arguments = .ok project ↔
      closeGrammar.parse (.ok wd) {} arguments = .ok (closeValues project) := by
  rw [parseClose]
  cases hparse : closeGrammar.parse (.ok wd) {} arguments with
  | error e => simp [bind, Except.bind]
  | ok values =>
    obtain ⟨pairs, rfl, hallowed, -, hreads⟩ := Grammar.parse_eq_ok.mp hparse
    rw [hreads.only_project hallowed]
    cases values.project <;> simp [bind, Except.bind, Grammar.require, closeValues]

theorem obeys_run :
    Obeys parseRun runGrammar [.project, .config, .dataDir, .reportDir] runValues := by
  apply obeys_of_values
  · exact fun wd arguments r => parseRun_eq_ok
  · intro wd pairs r hreads flag hflag hnone
    have hproject := hreads.project
    have hconfig := hreads.config
    have hdataDir := hreads.dataDir
    have hreportDir := hreads.reportDir
    simp only [List.mem_cons, List.not_mem_nil, or_false] at hflag
    rcases hflag with rfl | rfl | rfl | rfl <;> simp_all [runValues]
  · intro wd pairs values hfits hreads
    obtain ⟨project, hproject⟩ := hfits.path (by decide) hreads.project
    obtain ⟨name, hname⟩ := hfits.name (by decide) hreads.config
    obtain ⟨dataDir, hdataDir⟩ := hfits.path (by decide) hreads.dataDir
    obtain ⟨reportDir, hreportDir⟩ := hfits.path (by decide) hreads.reportDir
    refine ⟨⟨project, name, values.testCases, values.testSet, dataDir, reportDir⟩, ?_⟩
    rw [runValues, ← hproject, ← hname, ← hdataDir, ← hreportDir]
  · intro request pair _
    cases pair.flag <;> decide

theorem obeys_report : Obeys parseReport reportGrammar [.project, .config] reportValues := by
  apply obeys_of_values
  · exact fun wd arguments r => parseReport_eq_ok
  · intro wd pairs r hreads flag hflag hnone
    have hproject := hreads.project
    have hconfig := hreads.config
    simp only [List.mem_cons, List.not_mem_nil, or_false] at hflag
    rcases hflag with rfl | rfl <;> simp_all [reportValues]
  · intro wd pairs values hfits hreads
    obtain ⟨project, hproject⟩ := hfits.path (by decide) hreads.project
    obtain ⟨name, hname⟩ := hfits.name (by decide) hreads.config
    refine ⟨⟨project, name, values.testSet, values.dataDir, values.reportDir⟩, ?_⟩
    rw [reportValues, ← hproject, ← hname,
      ← hreads.no_testCases hfits.allowed (by decide) (by decide)]
  · intro request pair hpair
    simp only [FlagValues.written, reportValues, NameSet.empty, List.map_nil, List.append_nil,
      List.mem_append, List.mem_map] at hpair
    rcases hpair with (((⟨_, _, rfl⟩ | ⟨_, _, rfl⟩) | ⟨_, _, rfl⟩) | ⟨_, _, rfl⟩) | ⟨_, _, rfl⟩ <;>
      simp [reportGrammar]

theorem obeys_close : Obeys parseClose closeGrammar [.project] closeValues := by
  apply obeys_of_values
  · exact fun wd arguments r => parseClose_eq_ok
  · intro wd pairs r hreads flag hflag hnone
    have hproject := hreads.project
    obtain rfl := List.mem_singleton.mp hflag
    simp_all [closeValues]
  · intro wd pairs values hfits hreads
    obtain ⟨project, hproject⟩ := hfits.path (by decide) hreads.project
    refine ⟨project, ?_⟩
    rw [closeValues, ← hproject]
    exact hreads.only_project hfits.allowed
  · intro project pair hpair
    obtain rfl : pair = ⟨.project, project.text⟩ := by
      simpa [FlagValues.written, closeValues, NameSet.empty] using hpair
    exact List.mem_singleton_self _

theorem nameFault?_eq_none {text : String} : nameFault? text = none ↔
    text ≠ "" ∧ Text.trim text = text ∧ ¬ text.toList.any Text.isControl := by
  rw [nameFault?]
  split_ifs <;> simp_all

theorem trim_text (name : Name kind) : Text.trim name.text = name.text :=
  (nameFault?_eq_none.mp name.valid).2.1

/-- Names without commas are the segments of the text that lists them. -/
theorem segments_intercalate (names : List (Name kind)) (h : ∀ name ∈ names, ',' ∉ name.text.toList) :
    segments (",".intercalate (names.map (·.text))) = names.map (·.text) := by
  by_cases hne : names = []
  · subst hne
    rfl
  · have hsplit : Text.splitOn ',' (",".intercalate (names.map (·.text))).toList =
        names.map (·.text.toList) := by
      rw [String.toList_intercalate, List.map_map]
      apply Text.splitOn_intercalate
      · simpa using h
      · simpa using hne
    have htrim (name : Name kind) : String.ofList (Text.trimChars name.text.toList) = name.text :=
      trim_text name
    have hnonempty (name : Name kind) : name.text ≠ "" := (nameFault?_eq_none.mp name.valid).1
    rw [segments, hsplit, List.map_map]
    simp [Function.comp_def, htrim, hnonempty]

/-- Test cases one by one are the same as all of them at once. -/
theorem parse_testCase_each (hallowed : Flag.testCase ∈ grammar.allowed) (values : FlagValues)
    (texts rest : List String) :
    grammar.parse directory values (spell (texts.map (⟨.testCase, ·⟩)) ++ rest) =
      addTestCases values.testCases texts >>= fun set =>
        grammar.parse directory { values with testCases := set } rest := by
  induction texts generalizing values with
  | nil => rfl
  | cons text texts ih =>
    have hpair := Grammar.parse_pair ⟨.testCase, text⟩ directory values hallowed
      (spell (texts.map (⟨.testCase, ·⟩)) ++ rest)
    have hwords : spell ((text :: texts).map (⟨.testCase, ·⟩)) ++ rest =
      Flag.text .testCase :: text :: (spell (texts.map (⟨.testCase, ·⟩)) ++ rest) := rfl
    rw [hwords, hpair, FlagValues.take, addTestCases, addTestCases]
    cases parseName .scenario text with
    | error e => rfl
    | ok name => exact ih { values with testCases := values.testCases.insert name }

/-- A list of names comes to the same as one flag for each of them. -/
theorem parseRun_joined (before : List FlagPair) (names : List ScenarioName)
    (hnames : ∀ name ∈ names, ',' ∉ name.text.toList) (after : List String) :
    parseRun directory (spell before ++ ["--test-cases", ",".intercalate (names.map (·.text))] ++ after) =
      parseRun directory (spell before ++ names.flatMap (fun name => ["--test-case", name.text]) ++ after) := by
  have heach : names.flatMap (fun name => ["--test-case", name.text]) =
      spell ((names.map (·.text)).map (⟨.testCase, ·⟩)) := by
    simp [spell, List.flatMap_map, Flag.text]
  have hbefore : ∀ pair ∈ before, pair.flag ∈ runGrammar.allowed := by
    intro pair _
    cases pair.flag <;> decide
  have hparse : runGrammar.parse directory {}
        (spell before ++ ["--test-cases", ",".intercalate (names.map (·.text))] ++ after) =
      runGrammar.parse directory {}
        (spell before ++ names.flatMap (fun name => ["--test-case", name.text]) ++ after) := by
    rw [heach, List.append_assoc, List.append_assoc, Grammar.parse_spell_append directory {} hbefore,
      Grammar.parse_spell_append directory {} hbefore]
    congr 1
    funext values
    -- up to here both are read alike; now the one adds all names at once and the other each in turn
    rw [parse_testCase_each (by decide)]
    have hlisted : Flag.testCases ∈ runGrammar.allowed := by decide
    have hpair := Grammar.parse_pair ⟨.testCases, ",".intercalate (names.map (·.text))⟩
      directory values hlisted after
    refine hpair.trans ?_
    rw [FlagValues.take, segments_intercalate names hnames]
    cases addTestCases values.testCases (names.map (·.text)) <;> rfl
  rw [parseRun, parseRun, hparse]

/-- A command accepts the arguments that its grammar writes and no others, and takes from them what the
pairs give: of a flag with one value the last pair counts, and of test cases all that any pair names.
A list of test cases says no more than one flag for each. -/
theorem arguments_follow_grammar :
    Obeys parseRun runGrammar [.project, .config, .dataDir, .reportDir] runValues ∧
    Obeys parseReport reportGrammar [.project, .config] reportValues ∧
    Obeys parseClose closeGrammar [.project] closeValues ∧
    ∀ directory before (names : List ScenarioName) after, (∀ name ∈ names, ',' ∉ name.text.toList) →
      parseRun directory (spell before ++ ["--test-cases", ",".intercalate (names.map (·.text))] ++ after) =
        parseRun directory
          (spell before ++ names.flatMap (fun name => ["--test-case", name.text]) ++ after) :=
  ⟨obeys_run, obeys_report, obeys_close, fun _ before names after hnames =>
    parseRun_joined before names hnames after⟩

end GuardedRun.Cli
