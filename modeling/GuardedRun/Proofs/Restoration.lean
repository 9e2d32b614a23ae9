import GuardedRun.Proofs.Bookkeeping

/-! Restoring, call by call. Every step is tried, and every step that fails is reported and noted as
an error, whatever became of the others. -/

namespace GuardedRun

variable {σ : Type} {env : Environment σ} {w : World σ}

open Session MonadSession

namespace RestoreFailure

@[simp] theorem level_line (failure : RestoreFailure) : failure.line.level = .error := by
  cases failure <;> rfl

/-- What a failing call is blamed for. -/
def blamed {α : Type} (f : EngineError → RestoreFailure) : Except EngineError α → List RestoreFailure
  | .ok _ => []
  | .error e => [f e]

end RestoreFailure

namespace Guard

open RestoreFailure

/-- The calls that give one item its test set back, and what is reported and found of it. -/
inductive Returned (item : Item) : Option TestSet → List Exchange →
    List RestoreFailure → Option TestSet → Prop
  | refused (former e) : Returned item former [⟨.setItemTestSet item former, .error e⟩]
    [.testSet item e] none
  | given (testSet) : Returned item (some testSet)
    [⟨.setItemTestSet item (some testSet), .ok ()⟩] [] none
  | cleared : Returned item none
    [⟨.setItemTestSet item none, .ok ()⟩, ⟨.itemTestSet item, .ok none⟩] [] none
  | held (still) : Returned item none
    [⟨.setItemTestSet item none, .ok ()⟩, ⟨.itemTestSet item, .ok (some still)⟩]
    [.stillAssigned item still] (some still)
  | unverified (e) : Returned item none
    [⟨.setItemTestSet item none, .ok ()⟩, ⟨.itemTestSet item, .error e⟩] [.unverified item e] none

inductive ReturnedAll : List (Item × Option TestSet) → List Exchange →
    List RestoreFailure → List (Item × TestSet) → Prop
  | nil : ReturnedAll [] [] [] []
  | cons {item former rest xs ys failures others still held}
    (first : Returned item former xs failures still) (next : ReturnedAll rest ys others held) :
    ReturnedAll ((item, former) :: rest) (xs ++ ys) (failures ++ others)
      (still.toList.map (item, ·) ++ held)

/-- The calls that reset the directories. -/
inductive Reset (g : Guard) : List Exchange → List RestoreFailure → Prop
  | untouched (unchanged : g.directoriesChanged = false) : g.Reset [] []
  | tried (changed : g.directoriesChanged = true) (a b) : g.Reset
    [⟨.setDataDir g.configuration g.formerDataDir, a⟩,
      ⟨.setReportDir g.configuration g.formerReportDir, b⟩]
    (blamed .dataDir a ++ blamed .reportDir b)

/-- One call for each member of a list, with what is reported of its answer. -/
inductive Tried {ι : Type} (call : ι → Call)
    (report : (i : ι) → Except EngineError (call i).Reply → List RestoreFailure) :
    List ι → List Exchange → List RestoreFailure → Prop
  | nil : Tried call report [] [] []
  | cons {rest xs failures} (i a) (next : Tried call report rest xs failures) :
    Tried call report (i :: rest) (⟨call i, a⟩ :: xs) (report i a ++ failures)

/-- The call that undoes a deactivation. -/
abbrev reactivation (item : Item) : Call := .setItemActive item true

/-- The items that hold a test set of the id of a deleted one. -/
def dangling (assigned : List (Item × TestSet)) (testSet : TestSet) : List RestoreFailure :=
  (assigned.filter (·.2.id = testSet.id)).map fun p => .dangling p.1 testSet

/-- What is reported of the deletion of a test set that some items may still hold. -/
def deletionReport (assigned : List (Item × TestSet)) (testSet : TestSet) :
    Except EngineError Unit → List RestoreFailure
  | .ok _ => dangling assigned testSet
  | .error e => [.deletion testSet e]

/-- The four parts of a restore, in their order. -/
inductive Restores (g : Guard) : List Exchange → List RestoreFailure → Prop
  | all {xs₁ xs₂ xs₃ xs₄ failures₁ failures₂ failures₃ failures₄ held}
    (testSets : ReturnedAll g.formerTestSets xs₁ failures₁ held)
    (directories : g.Reset xs₂ failures₂)
    (deletions : Tried (.deleteTestSet g.project) (deletionReport held) g.temporary xs₃ failures₃)
    (activations : Tried reactivation (fun i => blamed (.activation i)) g.deactivated
      xs₄ failures₄) :
    g.Restores (xs₁ ++ xs₂ ++ xs₃ ++ xs₄) (failures₁ ++ failures₂ ++ failures₃ ++ failures₄)

theorem returns_blame (failure : RestoreFailure) :
    Returns env w (blame failure) fun t r =>
      t.exchanges = [] ∧ t.errors = [failure.line] ∧ r = [failure] := by
  unfold blame
  apply Returns.note_bind
  intro w₁ _
  apply Returns.pure
  simp

theorem returns_verifyCleared (item : Item) :
    Returns env w (verifyCleared item) fun t r => ∃ a, t.exchanges = [⟨.itemTestSet item, a⟩] ∧
      t.errors = r.1.map line ∧ r = match a with
        | .ok none => ([], none)
        | .ok (some still) => ([.stillAssigned item still], some still)
        | .error e => ([.unverified item e], none) := by
  unfold verifyCleared
  apply Returns.ask_bind
  intro raised a w₁ _
  rcases a with e | _ | still
  · apply Returns.bind (returns_blame _)
    intro t r w₂ _ h
    obtain ⟨hx, he, rfl⟩ := h
    apply Returns.pure
    exact ⟨.error e, by simp [hx], by simp [he], rfl⟩
  · apply Returns.note_bind
    intro w₂ _
    apply Returns.pure
    exact ⟨.ok none, by simp, by simp, rfl⟩
  · apply Returns.bind (returns_blame _)
    intro t r w₂ _ h
    obtain ⟨hx, he, rfl⟩ := h
    apply Returns.pure
    exact ⟨.ok (some still), by simp [hx], by simp [he], rfl⟩

theorem returns_restoreTestSet (item : Item) (former : Option TestSet) :
    Returns env w (restoreTestSet item former) fun t r =>
      Returned item former t.exchanges r.1 r.2 ∧ t.errors = r.1.map line := by
  unfold restoreTestSet
  apply Returns.ask_bind
  intro raised a w₁ _
  cases a with
  | error e =>
    apply Returns.bind (returns_blame _)
    intro t r w₂ _ h
    obtain ⟨hx, he, rfl⟩ := h
    apply Returns.pure
    simpa [hx, he] using Returned.refused former e
  | ok u =>
    cases former with
    | some testSet =>
      apply Returns.note_bind
      intro w₂ _
      apply Returns.pure
      simpa using Returned.given testSet
    | none =>
      -- the engine may ignore that an item is to hold none, so it is asked again
      apply (returns_verifyCleared item).mono
      intro t r h
      obtain ⟨a, hx, he, hr⟩ := h
      rcases a with e | _ | still <;> subst hr
      · simpa [hx, he] using Returned.unverified e
      · simpa [hx, he] using Returned.cleared
      · simpa [hx, he] using Returned.held still

theorem returns_restoreTestSets (former : List (Item × Option TestSet)) :
    Returns env w (restoreTestSets former) fun t r =>
      ReturnedAll former t.exchanges r.1 r.2 ∧ t.errors = r.1.map line := by
  induction former generalizing w with
  | nil => exact .pure ⟨.nil, rfl⟩
  | cons entry rest ih =>
    obtain ⟨item, former⟩ := entry
    unfold restoreTestSets
    apply Returns.bind (returns_restoreTestSet item former)
    rintro t ⟨failures, still⟩ w₁ - ⟨hx, he⟩
    apply Returns.bind ih
    rintro t' ⟨others, held⟩ w₂ - ⟨hx', he'⟩
    apply Returns.pure
    rw [Trace.append_nil]
    constructor
    · rw [Trace.exchanges_append]
      exact .cons hx hx'
    · simp only [Trace.errors_append, he, he', List.map_append]

/-- A step of a restore: a call that is noted when it succeeds and blamed when it fails. -/
theorem returns_step {call : Call} {f : EngineError → RestoreFailure} {said : LogLine}
    {k : Except EngineError call.Reply → Session σ (List RestoreFailure)}
    (hok : ∀ reply, k (.ok reply) = Session.note said >>= fun _ => pure [])
    (herror : ∀ e, k (.error e) = blame (f e)) (hsaid : said.level ≠ .error) :
    Returns env w (Session.ask call >>= k) fun t fs =>
      ∃ a, t.exchanges = [⟨call, a⟩] ∧ t.errors = fs.map line ∧ fs = blamed f a := by
  apply Returns.ask_bind
  intro raised a w₁ _
  cases a with
  | ok reply =>
    rw [hok]
    apply Returns.note_bind
    intro w₂ _
    apply Returns.pure
    exact ⟨.ok reply, by simp, by simp [hsaid], rfl⟩
  | error e =>
    rw [herror]
    apply (returns_blame _).mono
    intro t fs h
    obtain ⟨hx, he, rfl⟩ := h
    exact ⟨.error e, by simp [hx], by simp [he], rfl⟩

theorem returns_restoreDataDir (g : Guard) :
    Returns env w (restoreDataDir g) fun t fs => ∃ a,
      t.exchanges = [⟨.setDataDir g.configuration g.formerDataDir, a⟩] ∧
        t.errors = fs.map line ∧ fs = blamed .dataDir a := by
  unfold restoreDataDir
  apply returns_step (fun _ => rfl) (fun _ => rfl)
  exact nofun

theorem returns_restoreReportDir (g : Guard) :
    Returns env w (restoreReportDir g) fun t fs => ∃ a,
      t.exchanges = [⟨.setReportDir g.configuration g.formerReportDir, a⟩] ∧
        t.errors = fs.map line ∧ fs = blamed .reportDir a := by
  unfold restoreReportDir
  apply returns_step (fun _ => rfl) (fun _ => rfl)
  exact nofun

theorem returns_restoreDirectories (g : Guard) :
    Returns env w (restoreDirectories g) fun t fs =>
      g.Reset t.exchanges fs ∧ t.errors = fs.map line := by
  unfold restoreDirectories
  cases hg : g.directoriesChanged with
  | false => exact .pure ⟨.untouched hg, rfl⟩
  | true =>
    apply Returns.bind (returns_restoreDataDir g)
    intro t fs w₁ _ h
    obtain ⟨a, hx, he, rfl⟩ := h
    apply Returns.bind (returns_restoreReportDir g)
    intro t' fs' w₂ _ h
    obtain ⟨b, hx', he', rfl⟩ := h
    apply Returns.pure
    rw [Trace.append_nil]
    constructor
    · rw [Trace.exchanges_append, hx, hx']
      exact .tried hg a b
    · rw [Trace.errors_append, he, he', List.map_append]

theorem returns_blameDangling (testSet : TestSet) (assigned : List (Item × TestSet)) :
    Returns env w (blameDangling testSet assigned) fun t fs =>
      t.exchanges = [] ∧ t.errors = fs.map line ∧ fs = dangling assigned testSet := by
  induction assigned generalizing w with
  | nil => exact .pure ⟨rfl, rfl, rfl⟩
  | cons entry rest ih =>
    obtain ⟨item, held⟩ := entry
    unfold blameDangling
    by_cases hid : held.id = testSet.id
    · rw [if_pos hid]
      apply Returns.bind (returns_blame _)
      intro t fs w₁ _ h
      obtain ⟨hx, he, rfl⟩ := h
      apply Returns.bind ih
      intro t' fs' w₂ _ h
      obtain ⟨hx', he', rfl⟩ := h
      apply Returns.pure
      exact ⟨by simp [hx, hx'], by simp [he, he'], by simp [dangling, hid]⟩
    · rw [if_neg hid]
      apply Returns.bind (.pure (S := fun t fs => t = {} ∧ fs = []) ⟨rfl, rfl⟩)
      intro t fs w₁ _ h
      obtain ⟨rfl, rfl⟩ := h
      apply Returns.bind ih
      intro t' fs' w₂ _ h
      obtain ⟨hx', he', rfl⟩ := h
      apply Returns.pure
      exact ⟨by simp [hx'], by simp [he'], by simp [dangling, hid]⟩

theorem returns_deleteTemporary (project : Project) (assigned : List (Item × TestSet))
    (temporary : List TestSet) :
    Returns env w (deleteTemporary project assigned temporary) fun t fs =>
      Tried (.deleteTestSet project) (deletionReport assigned) temporary t.exchanges fs ∧
        t.errors = fs.map line := by
  -- a deletion that fails does not end the others
  induction temporary generalizing w with
  | nil => exact .pure ⟨.nil, rfl⟩
  | cons testSet rest ih =>
    unfold deleteTemporary
    apply Returns.ask_bind
    intro raised a w₁ _
    cases a with
    | ok u =>
      apply Returns.note_bind
      intro w₂ _
      apply Returns.bind (returns_blameDangling testSet assigned)
      intro t fs w₃ _ h
      obtain ⟨hx, he, rfl⟩ := h
      apply Returns.bind ih
      intro t' fs' w₄ _ h
      obtain ⟨hx', he'⟩ := h
      apply Returns.pure
      constructor
      · have hc := Tried.cons testSet (.ok u) hx'
        simpa [hx, deletionReport] using hc
      · simp [he, he']
    | error e =>
      apply Returns.bind (returns_blame _)
      intro t fs w₂ _ h
      obtain ⟨hx, he, rfl⟩ := h
      apply Returns.bind ih
      intro t' fs' w₃ _ h
      obtain ⟨hx', he'⟩ := h
      apply Returns.pure
      constructor
      · have hc := Tried.cons testSet (.error e) hx'
        simpa [hx, deletionReport] using hc
      · simp [he, he']

theorem returns_reactivate (items : List Item) :
    Returns env w (reactivate items) fun t fs =>
      Tried reactivation (fun i => blamed (.activation i)) items t.exchanges fs ∧
        t.errors = fs.map line := by
  induction items generalizing w with
  | nil => exact .pure ⟨.nil, rfl⟩
  | cons item rest ih =>
    unfold reactivate
    apply Returns.ask_bind
    intro raised a w₁ _
    cases a with
    | ok u =>
      apply Returns.note_bind
      intro w₂ _
      apply Returns.bind (.pure (S := fun t fs => t = {} ∧ fs = []) ⟨rfl, rfl⟩)
      intro t fs w₃ _ h
      obtain ⟨rfl, rfl⟩ := h
      apply Returns.bind ih
      intro t' fs' w₄ _ h
      obtain ⟨hx', he'⟩ := h
      apply Returns.pure
      constructor
      · have hc : Tried reactivation (fun i => blamed (.activation i)) (item :: rest)
            (⟨.setItemActive item true, .ok u⟩ :: t'.exchanges) fs' := .cons item (.ok u) hx'
        simpa using hc
      · simp [he']
    | error e =>
      apply Returns.bind (returns_blame _)
      intro t fs w₂ _ h
      obtain ⟨hx, he, rfl⟩ := h
      apply Returns.bind ih
      intro t' fs' w₃ _ h
      obtain ⟨hx', he'⟩ := h
      apply Returns.pure
      constructor
      · have hc : Tried reactivation (fun i => blamed (.activation i)) (item :: rest)
            (⟨.setItemActive item true, .error e⟩ :: t'.exchanges) (.activation item e :: fs') :=
          .cons item (.error e) hx'
        simpa [hx] using hc
      · simp [he, he']

theorem returns_restore (g : Guard) :
    Returns env w g.restore fun t fs => g.Restores t.exchanges fs ∧ t.errors = fs.map line := by
  unfold restore
  apply Returns.bind (returns_restoreTestSets g.formerTestSets)
  rintro t₁ ⟨failures₁, held⟩ w₁ - ⟨hx₁, he₁⟩
  apply Returns.bind (returns_restoreDirectories g)
  intro t₂ failures₂ w₂ _ h
  obtain ⟨hx₂, he₂⟩ := h
  apply Returns.bind (returns_deleteTemporary g.project held g.temporary)
  intro t₃ failures₃ w₃ _ h
  obtain ⟨hx₃, he₃⟩ := h
  apply Returns.bind (returns_reactivate g.deactivated)
  intro t₄ failures₄ w₄ _ h
  obtain ⟨hx₄, he₄⟩ := h
  apply Returns.pure
  have hall := Restores.all hx₁ hx₂ hx₃ hx₄
  simp only [List.append_assoc] at hall
  constructor
  · simpa using hall
  · simp [he₁, he₂, he₃, he₄]

end Guard

end GuardedRun
