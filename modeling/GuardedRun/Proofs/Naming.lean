import GuardedRun.Cli.Command
import GuardedRun.Proofs.Refusal
import Mathlib.Data.List.DropRight

/-! Which settings give names for temporary test sets. The settings are judged by whether anything is
left of the prefix once it is trimmed; a name must also have no control character inside, and that is
found out only when a name is drawn, after the directories were redirected. -/

namespace GuardedRun

open Guard Session

namespace Text

/-- What is left of a text that is not blank begins with something. -/
theorem trimChars_eq_cons {s : List Char} (h : s.all isBlank = false) :
    ∃ c rest, trimChars s = c :: rest ∧ isBlank c = false := by
  have hleft : s.dropWhile isBlank ≠ [] := by
    rw [Ne, List.dropWhile_eq_nil_iff, ← List.all_eq_true, h]
    exact Bool.false_ne_true
  have hhead := List.head_dropWhile_not isBlank hleft
  generalize hd : s.dropWhile isBlank = left at hleft hhead
  obtain ⟨c, d, rfl⟩ := List.exists_cons_of_ne_nil hleft
  have htrim : trimChars s = (c :: d).rdropWhile isBlank := by
    rw [trimChars, hd]
    rfl
  rw [htrim]
  -- the first character that is not blank keeps the blanks behind it from being all there is
  obtain ⟨dropped, hparts⟩ := List.rdropWhile_prefix isBlank (c :: d)
  cases hkept : (c :: d).rdropWhile isBlank with
  | nil =>
    have hall := List.rdropWhile_eq_nil_iff.mp hkept c List.mem_cons_self
    rw [List.head_cons] at hhead
    rw [hhead] at hall
    cases hall
  | cons c' rest =>
    rw [hkept, List.cons_append] at hparts
    obtain rfl : c' = c := (List.cons.inj hparts).1
    exact ⟨c', rest, rfl, hhead⟩

/-- A text is blank if nothing is left of it. -/
theorem isBlankText_iff {text : String} : isBlankText text = true ↔ trim text = "" := by
  constructor
  · intro hblank
    have hleft : text.toList.dropWhile isBlank = [] :=
      List.dropWhile_eq_nil_iff.mpr (List.all_eq_true.mp hblank)
    rw [trim, trimChars, hleft]
    rfl
  · intro htrim
    by_contra hblank
    obtain ⟨c, rest, hchars, -⟩ := trimChars_eq_cons (Bool.eq_false_iff.mpr hblank)
    rw [trim, hchars] at htrim
    have hnothing := congrArg String.toList htrim
    rw [String.toList_ofList] at hnothing
    cases hnothing

/-- A text that neither begins nor ends with a blank is left as it is. -/
theorem trimChars_between {c d : Char} {mid : List Char} (hc : isBlank c = false)
    (hd : isBlank d = false) : trimChars (c :: (mid ++ [d])) = c :: (mid ++ [d]) := by
  have hleft : (c :: (mid ++ [d])).dropWhile isBlank = c :: (mid ++ [d]) := by
    rw [List.dropWhile_cons_of_neg (by rw [hc]; exact Bool.false_ne_true)]
  rw [trimChars, hleft, ← List.cons_append, List.reverse_append, List.reverse_singleton,
    List.singleton_append, List.dropWhile_cons_of_neg (by rw [hd]; exact Bool.false_ne_true),
    List.reverse_cons, List.reverse_reverse]

theorem plain_of_isDigit {c : Char} (h : c.isDigit = true) :
    isBlank c = false ∧ isControl c = false := by
  obtain ⟨hlow, hhigh⟩ := Char.isDigit_iff_toNat.mp h
  have hzero : '0'.toNat = 48 := rfl
  have hnine : '9'.toNat = 57 := rfl
  rw [hzero] at hlow
  rw [hnine] at hhigh
  constructor
  · simp only [isBlank, Bool.or_eq_false_iff, Bool.and_eq_false_iff, decide_eq_false_iff_not,
      beq_eq_false_iff_ne]
    omega
  · simp only [isControl, Bool.or_eq_false_iff, Bool.and_eq_false_iff, decide_eq_false_iff_not]
    omega

end Text

/-- A text between two characters that are not blank is a name unless it has a control character. -/
theorem nameFault?_between {text : String} {c d : Char} {mid : List Char}
    (ht : text.toList = c :: (mid ++ [d])) (hc : Text.isBlank c = false)
    (hd : Text.isBlank d = false) :
    nameFault? text = if text.toList.any Text.isControl then some .controlCharacter else none := by
  have hfull : text.isEmpty ≠ true := by
    rw [Ne, String.isEmpty_iff, ← String.toList_eq_nil_iff, ht]
    exact List.cons_ne_nil _ _
  have htrim : Text.trim text = text := by
    rw [Text.trim, ht, Text.trimChars_between hc hd, ← ht, String.ofList_toList]
  rw [nameFault?, if_neg hfull, if_neg (not_not.mpr htrim)]

theorem Name.parse_eq_ok {kind : NameKind} {text : String} :
    (∃ name, (Name.parse text : Except NameFault (Name kind)) = .ok name) ↔ nameFault? text = none := by
  constructor
  · rintro ⟨name, h⟩
    rw [Name.parse_eq_ok_iff.mp h]
    exact name.valid
  · intro h
    exact ⟨⟨text, h⟩, Name.parse_eq_ok_iff.mpr rfl⟩

namespace TemporaryNames

theorem toList_candidate (names : TemporaryNames) (n : Nat) :
    (names.candidate n).toList = names.stem.toList ++ ' ' :: Nat.toDigits 10 n := by
  simp only [candidate, toString, String.toList_append, List.append_assoc, Nat.toList_repr]
  rfl

/-- With a stem that begins with something, only a control character keeps a text from being a name. -/
theorem nameFault?_candidate {names : TemporaryNames} {c : Char} {rest : List Char}
    (hstem : names.stem.toList = c :: rest) (hc : Text.isBlank c = false) (n : Nat) :
    nameFault? (names.candidate n) =
      if names.stem.toList.any Text.isControl then some .controlCharacter else none := by
  have hdigit : ∀ d ∈ Nat.toDigits 10 n, d.isDigit = true := fun d hd =>
    Nat.isDigit_of_mem_toDigits (by omega) (by omega) hd
  have hplain : (Nat.toDigits 10 n).any Text.isControl = false := by
    rw [List.any_eq_false]
    intro d hd
    rw [(Text.plain_of_isDigit (hdigit d hd)).2]
    exact Bool.false_ne_true
  rcases List.eq_nil_or_concat (Nat.toDigits 10 n) with hnil | ⟨digits, d, hdigits⟩
  · exact absurd hnil Nat.toDigits_ne_nil
  -- the last digit is no blank, and the first character of the stem is none either
  rw [List.concat_eq_append] at hdigits
  have hd : d.isDigit = true := hdigit d (by simp [hdigits])
  have ht : (names.candidate n).toList = c :: ((rest ++ ' ' :: digits) ++ [d]) := by
    rw [toList_candidate, hstem, hdigits]
    simp
  have hany : (names.candidate n).toList.any Text.isControl =
      names.stem.toList.any Text.isControl := by
    rw [toList_candidate, List.any_append, List.any_cons, hplain]
    exact Bool.or_false _
  rw [nameFault?_between ht hc (Text.plain_of_isDigit hd).1, hany]

theorem fst_draw (names : TemporaryNames) :
    names.draw.1 = Name.parse (names.candidate names.freeNumber) := rfl

/-- Numbers make no difference: a numbered text is a name just when the stem has no control character. -/
theorem parse_candidate_eq_ok {names : TemporaryNames} {c : Char} {rest : List Char}
    (hstem : names.stem.toList = c :: rest) (hc : Text.isBlank c = false) (n : Nat) :
    (∃ name, (Name.parse (names.candidate n) : Except NameFault TestSetName) = .ok name) ↔
      names.stem.toList.any Text.isControl = false := by
  rw [Name.parse_eq_ok, nameFault?_candidate hstem hc]
  cases names.stem.toList.any Text.isControl with
  | false => exact iff_of_true (if_neg Bool.false_ne_true) rfl
  | true => exact iff_of_false (by rw [if_pos rfl]; exact nofun) nofun

end TemporaryNames

namespace Settings

/-- What the names of temporary test sets begin with. -/
def stem (settings : Settings) : String := Text.trim settings.orchestration.tempTestSetPrefix

/-- Names can begin with the prefix: once it is trimmed, it has no control character. -/
def Namable (settings : Settings) : Prop := settings.stem.toList.any Text.isControl = false

instance (settings : Settings) : Decidable settings.Namable :=
  inferInstanceAs (Decidable (_ = _))

/-- The prefix of usable settings is not blank. -/
theorem stem_eq_cons {settings : Settings} (h : settings.fault? = none) :
    ∃ c rest, settings.stem.toList = c :: rest ∧ Text.isBlank c = false := by
  have hprefix : settings.orchestration.tempTestSetPrefix.toList.all Text.isBlank = false := by
    grind [fault?, Text.isBlankText]
  obtain ⟨c, rest, htrim, hc⟩ := Text.trimChars_eq_cons hprefix
  exact ⟨c, rest, by rw [stem, Text.trim, String.toList_ofList, htrim], hc⟩

/-- Usable settings name all temporary test sets or none. -/
theorem parse_candidate_eq_ok {settings : Settings} (h : settings.fault? = none)
    {names : TemporaryNames} (hn : names.stem = settings.stem) (n : Nat) :
    (∃ name, (Name.parse (names.candidate n) : Except NameFault TestSetName) = .ok name) ↔
      settings.Namable := by
  obtain ⟨c, rest, hstem, hc⟩ := stem_eq_cons h
  rw [TemporaryNames.parse_candidate_eq_ok (hn ▸ hstem) hc, hn, Namable]

end Settings

theorem Request.Prepared.of_execution {ctx : Orchestration} {request : ExecutionRequest}
    {xs : List Exchange} {task : Task} {g : Guard}
    (h : Request.Prepared ctx (.execution request) xs task g) :
    ∃ plan taken, task = .execution request plan (.of ctx.tempPattern taken) := by
  obtain ⟨data, report, opened, required, planned⟩ := h
  cases planned with
  | execution resolved devised => exact ⟨_, _, rfl⟩

/-- An execution that refuses its request has only planned for it, or has redirected both directories
and then drawn no name. -/
theorem Refused.of_invalidRequest {ctx : Orchestration} {request : ExecutionRequest}
    {xs : List Exchange} {reason : String}
    (h : Refused ctx (.execution request) xs (.invalidRequest reason)) :
    (Request.execution request).Planning xs ∨
      (∃ c, redirections c (some request.dataDir) (some request.reportDir) ⊆ xs) ∧
      ∃ taken number, ¬ ∃ name, (Name.parse ((TemporaryNames.of ctx.tempPattern taken).candidate number) :
        Except NameFault TestSetName) = .ok name := by
  cases h with
  | planning plans => exact .inl plans
  | @altering _ planning redirection alteration task g later parts prepared altering =>
    obtain ⟨plan, taken, rfl⟩ := prepared.of_execution
    -- a refusal is no failed call, so the directories had been redirected before it
    have hredirected : redirection.exchanges =
        redirections g.configuration (some request.dataDir) (some request.reportDir) :=
      altering.redirected nofun
    have hmade : redirections g.configuration (some request.dataDir) (some request.reportDir) ⊆ xs := by
      rw [parts, ← hredirected]
      intro x hx
      exact List.mem_append_left _ (List.mem_append_right _ (List.mem_append_left _ hx))
    cases altering.blamed _ rfl with
    | name number fault refused =>
      have hrefused : ¬ ∃ name, (Name.parse ((TemporaryNames.of ctx.tempPattern taken).candidate
          number) : Except NameFault TestSetName) = .ok name := by
        rw [refused]
        exact nofun
      exact .inr ⟨⟨g.configuration, hmade⟩, taken, number, hrefused⟩
  | thwarted thwarted => cases thwarted

/-- Exactly the settings with a prefix that names can begin with always give a temporary test set its
name, and then an execution that refuses its request has changed nothing. -/
theorem refuses_untouched_iff_namable (settings : Settings) (h : settings.fault? = none)
    (rounds : Nat) :
    ((∀ names : TemporaryNames, names.stem = settings.stem →
        ∃ name, names.draw.1 = .ok name) ∧
      ∀ (σ : Type) (env : Environment σ) (request : ExecutionRequest) (w w' : World σ)
        (reason : String),
        Session.run (Attempt.executeTestCases (Cli.orchestration settings rounds) request).run env w =
            (some (.error (.invalidRequest reason)), w') →
          ∃ events, w'.events = w.events ++ events ∧
            ∀ x ∈ events.filterMap Event.exchange?, x.call.isEffect = false) ↔
      settings.Namable := by
  constructor
  · rintro ⟨hdraws, -⟩
    obtain ⟨name, hname⟩ := hdraws (.of settings.orchestration.tempTestSetPrefix []) rfl
    rw [TemporaryNames.fst_draw] at hname
    exact (Settings.parse_candidate_eq_ok h rfl _).mp ⟨name, hname⟩
  · intro hnamable
    constructor
    · intro names hn
      rw [TemporaryNames.fst_draw]
      exact (Settings.parse_candidate_eq_ok h hn _).mpr hnamable
    intro σ env request w w' reason hrun
    obtain ⟨t, hevents, hcourse⟩ := orchestrate_course env (Cli.orchestration settings rounds)
      (.execution request) w
    rw [Request.orchestrate, hrun] at hevents hcourse
    refine ⟨t.events, hevents, ?_⟩
    rcases hcourse.refused.of_invalidRequest with hplanning | ⟨-, taken, number, hrefused⟩
    · exact hplanning.effectless
    · -- the prefix gives names for all numbers
      exact absurd ((Settings.parse_candidate_eq_ok h rfl number).mpr hnamable) hrefused

theorem second_name_drawn : ({} : Settings).fault? = none ∧
    ∃ name, (TemporaryNames.of "JENKINS Exec" ["JENKINS Exec 1"]).draw.1 = .ok name ∧
      name.text = "JENKINS Exec 2" := by
  have husable : ({} : Settings).fault? = none := by decide +kernel
  have hnamable : ({} : Settings).Namable := by decide +kernel
  obtain ⟨hdraws, -⟩ := (refuses_untouched_iff_namable {} husable 3).mpr hnamable
  obtain ⟨name, hname⟩ := hdraws (.of "JENKINS Exec" ["JENKINS Exec 1"]) (by decide +kernel)
  refine ⟨husable, name, hname, ?_⟩
  rw [TemporaryNames.fst_draw] at hname
  rw [← Name.parse_eq_ok_iff.mp hname]
  decide +kernel

/-- Settings with a control character inside of the prefix. -/
def tabbedSettings : Settings := { orchestration := { tempTestSetPrefix := "CI\tRun" } }

theorem tabbed_refused_late : tabbedSettings.fault? = none ∧
    (TemporaryNames.of tabbedSettings.orchestration.tempTestSetPrefix []).draw.1 =
      .error .controlCharacter ∧
    ∃ reason w', Session.run (Attempt.executeTestCases (Cli.orchestration tabbedSettings 3)
        loginRequest).run Rehearsal.environment { outside := Rehearsal.small } =
        (some (.error (.invalidRequest reason)), w') ∧
      (OrchestrationError.invalidRequest reason).isPreMutation = true ∧
      ∃ x ∈ w'.events.filterMap Event.exchange?, x.call.isEffect = true := by
  refine ⟨by decide +kernel, by decide +kernel, ?_⟩
  have herror : failure? (Session.run (Attempt.executeTestCases (Cli.orchestration tabbedSettings 3)
      loginRequest).run Rehearsal.environment { outside := Rehearsal.small }).1 =
        some (.invalidRequest (NameFault.controlCharacter.message NameKind.testSet.label)) := by
    decide +kernel
  have hlate : ((Session.run (Attempt.executeTestCases (Cli.orchestration tabbedSettings 3)
      loginRequest).run Rehearsal.environment { outside := Rehearsal.small }).2.events.filterMap
        Event.exchange?).any (·.call.isEffect) = true := by
    decide +kernel
  generalize Session.run (Attempt.executeTestCases (Cli.orchestration tabbedSettings 3)
    loginRequest).run Rehearsal.environment { outside := Rehearsal.small } = result at herror hlate ⊢
  rcases result with ⟨_ | e | outcome, w'⟩
  · cases herror
  · obtain rfl := Option.some.inj herror
    exact ⟨_, w', rfl, rfl, List.any_eq_true.mp hlate⟩
  · cases herror

end GuardedRun
