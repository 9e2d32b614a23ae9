import GuardedRun.Cli.Program
import Mathlib.Logic.Relation

/-! The settings flag among other arguments. It is taken out together with the word behind it, whatever
that word is, so that where it stood makes no difference to what is left. -/

namespace GuardedRun.Cli

/-- The arguments are some words, in their order, with settings flags and their paths put in between. -/
inductive Interspersed : List Path → List String → List String → Prop
  | nil : Interspersed [] [] []
  | flag {paths words arguments} (path : Path) (rest : Interspersed paths words arguments) :
    Interspersed (path :: paths) words ("--settings" :: path.text :: arguments)
  | word {paths words arguments} (word : String) (rest : Interspersed paths words arguments) :
    Interspersed paths (word :: words) (word :: arguments)

/-- One step of a scan from the left: the flag goes with the word behind it, any other word alone. -/
inductive ScanStep : List String → List String → Prop
  | flag (path : String) (rest : List String) : ScanStep ("--settings" :: path :: rest) rest
  | word {word : String} (other : word ≠ "--settings") (rest : List String) :
    ScanStep (word :: rest) rest

variable {paths : List Path} {words arguments : List String}

theorem interspersed_self (words : List String) : Interspersed [] words words := by
  induction words with
  | nil => exact .nil
  | cons word rest ih => exact .word word ih

theorem splitSettings_flag (path : String) (rest : List String) :
    splitSettings ("--settings" :: path :: rest) =
      (splitSettings rest).map fun (later, others) => (later.or (some ⟨path⟩), others) := by
  rw [splitSettings]
  cases splitSettings rest <;> rfl

theorem splitSettings_word {word : String} (h : word ≠ "--settings") (rest : List String) :
    splitSettings (word :: rest) =
      (splitSettings rest).map fun (settings, others) => (settings, word :: others) := by
  rw [splitSettings]
  · cases splitSettings rest <;> rfl
  · exact h

theorem getLast?_cons_or (path : Path) (paths : List Path) :
    (path :: paths).getLast? = paths.getLast?.or (some path) := by
  rw [List.getLast?_cons]
  cases paths.getLast? <;> rfl

/-- Words among which the flag does not stand are what is left, however flags are put in between. -/
theorem Interspersed.split (h : Interspersed paths words arguments) (hwords : "--settings" ∉ words) :
    splitSettings arguments = .ok (paths.getLast?, words) := by
  -- a path counts only if no later one does, so the last one is found from the back
  induction h with
  | nil => rfl
  | flag path rest ih =>
    rw [splitSettings_flag, ih hwords, getLast?_cons_or]
    rfl
  | word word rest ih =>
    rw [List.mem_cons, not_or] at hwords
    obtain ⟨hword, hrest⟩ := hwords
    rw [splitSettings_word (Ne.symm hword), ih hrest]
    rfl

theorem split_of_scan (h : Relation.ReflTransGen ScanStep arguments ["--settings"]) :
    splitSettings arguments = .error .settingsWithoutPath := by
  induction h using Relation.ReflTransGen.head_induction_on with
  | refl => rfl
  | head hstep _ ih =>
    cases hstep with
    | flag path rest => rw [splitSettings_flag, ih]; rfl
    | word other rest => rw [splitSettings_word other, ih]; rfl

/-- A scan comes to the end of the arguments, or to a flag that is the last word. -/
theorem interspersed_or_scans (arguments : List String) :
    (∃ paths words, "--settings" ∉ words ∧ Interspersed paths words arguments) ∨
      Relation.ReflTransGen ScanStep arguments ["--settings"] := by
  -- along the scan; a word it passes alone is not the flag, so it may stand among the words
  induction arguments using splitSettings.induct with
  | case1 => exact .inl ⟨[], [], List.not_mem_nil, .nil⟩
  | case2 => exact .inr .refl
  | case3 path rest ih =>
    rcases ih with ⟨paths, words, hwords, h⟩ | hscan
    · exact .inl ⟨⟨path⟩ :: paths, words, hwords, .flag ⟨path⟩ h⟩
    · exact .inr (.head (.flag path rest) hscan)
  | case4 word rest hword ih =>
    rcases ih with ⟨paths, words, hwords, h⟩ | hscan
    · have hwords' : "--settings" ∉ word :: words :=
        List.not_mem_cons_of_ne_of_not_mem (Ne.symm hword) hwords
      exact .inl ⟨paths, word :: words, hwords', .word word h⟩
    · exact .inr (.head (.word hword rest) hscan)

theorem splitSettings_eq_ok {settings : Option Path} :
    splitSettings arguments = .ok (settings, words) ↔ "--settings" ∉ words ∧
      ∃ paths, Interspersed paths words arguments ∧ settings = paths.getLast? := by
  constructor
  · intro h
    rcases interspersed_or_scans arguments with ⟨paths, words', hwords, hpaths⟩ | hscan
    · rw [hpaths.split hwords] at h
      cases h
      exact ⟨hwords, paths, hpaths, rfl⟩
    · rw [split_of_scan hscan] at h
      cases h
  · rintro ⟨hwords, paths, hpaths, rfl⟩
    exact hpaths.split hwords

theorem splitSettings_eq_error {e : FlagError} :
    splitSettings arguments = .error e ↔
      e = .settingsWithoutPath ∧ Relation.ReflTransGen ScanStep arguments ["--settings"] := by
  constructor
  · intro h
    rcases interspersed_or_scans arguments with ⟨paths, words, hwords, hpaths⟩ | hscan
    · rw [hpaths.split hwords] at h
      cases h
    · rw [split_of_scan hscan] at h
      cases h
      exact ⟨rfl, hscan⟩
  · rintro ⟨rfl, hscan⟩
    exact split_of_scan hscan

/-- A call is settled by the last path that the settings flag was given and by what is left. -/
theorem run_eq_of_split {σ : Type} (host : Host σ) (rounds : Nat) (outside : σ)
    {arguments arguments' : List String} (h : splitSettings arguments = splitSettings arguments') :
    run host rounds arguments outside = run host rounds arguments' outside := by
  simp only [run, h]

/-- The settings flag may stand anywhere, between another flag and its value or in front of the verb:
what is left are the other words, the last path counts, and a flag without a word behind it is the only
thing amiss. So calls that differ in the places of the flag alone come to the same. -/
theorem settings_stand_anywhere :
    (∀ arguments settings words, splitSettings arguments = .ok (settings, words) ↔
      "--settings" ∉ words ∧
        ∃ paths, Interspersed paths words arguments ∧ settings = paths.getLast?) ∧
    (∀ words, "--settings" ∉ words → splitSettings words = .ok (none, words)) ∧
    (∀ arguments e, splitSettings arguments = .error e ↔
      e = .settingsWithoutPath ∧ Relation.ReflTransGen ScanStep arguments ["--settings"]) ∧
    ∀ {σ : Type} (host : Host σ) (rounds : Nat) (outside : σ) (words paths arguments paths' arguments'),
      "--settings" ∉ words → Interspersed paths words arguments →
        Interspersed paths' words arguments' → paths.getLast? = paths'.getLast? →
          run host rounds arguments outside = run host rounds arguments' outside := by
  refine ⟨fun arguments settings words => splitSettings_eq_ok,
    fun words hwords => (interspersed_self words).split hwords,
    fun arguments e => splitSettings_eq_error, ?_⟩
  intro σ host rounds outside words paths arguments paths' arguments' hwords h h' hlast
  apply run_eq_of_split
  rw [h.split hwords, h'.split hwords, hlast]

/-- The flag takes the word behind it even where that is the flag once more. -/
example : splitSettings ["--settings", "a.yaml", "run", "--config", "--settings", "--settings", "Nightly"] =
    .ok (some ⟨"--settings"⟩, ["run", "--config", "Nightly"]) := rfl

end GuardedRun.Cli
