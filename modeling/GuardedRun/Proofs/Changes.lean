import GuardedRun.Proofs.Bookkeeping

/-! The changes of a configuration, from one operation of the guard up to a whole plan: each is
remembered in full, and a failing call ends it. -/

namespace GuardedRun

variable {σ ε α β : Type} {env : Environment σ} {w : World σ}

open MonadSession

namespace Call

/-- The calls that point a configuration at other directories. -/
def isRedirect : Call → Bool
  | setDataDir _ _ | setReportDir _ _ => true
  | _ => false

/-- The item that a call reads the test set of or writes to. -/
def item? : Call → Option Item
  | itemTestSet item | setItemTestSet item _ | setItemActive item _ => some item
  | _ => none

/-- The calls of assignments: an item is given a test set, or what it held before is read. -/
def isAssignment : Call → Bool
  | itemTestSet _ | setItemTestSet _ (some _) => true
  | _ => false

end Call

namespace Guard

variable {g : Guard}

open Guarded Session

/-- A call that changes the items or test sets, confined to some items. -/
structure Change (items : List Item) (c : Call) : Prop where
  not_redirect : c.isRedirect = false
  item_mem : ∀ i, c.item? = some i → i ∈ items

/-- A call that assigns test sets, confined to some items. -/
structure Assigns (items : List Item) (c : Call) : Prop extends Change items c where
  isAssignment : c.isAssignment = true

theorem returns_redirectData (path : Path) :
    Returns env w (under g (redirectData path : Guarded σ EngineError Unit)) fun t r =>
      ∃ a, t.exchanges = [⟨.setDataDir g.configuration path, a⟩] ∧ r = (a, g) := by
  unfold redirectData
  rw [under_get_bind]
  apply returns_ask_bind
  · intro raised e
    exact ⟨.error e, by simp, rfl⟩
  · intro raised a w₁ _
    apply returns_note
    exact ⟨.ok a, by simp, rfl⟩

theorem returns_redirectReport (path : Path) :
    Returns env w (under g (redirectReport path : Guarded σ EngineError Unit)) fun t r =>
      ∃ a, t.exchanges = [⟨.setReportDir g.configuration path, a⟩] ∧ r = (a, g) := by
  unfold redirectReport
  rw [under_get_bind]
  apply returns_ask_bind
  · intro raised e
    exact ⟨.error e, by simp, rfl⟩
  · intro raised a w₁ _
    apply returns_note
    exact ⟨.ok a, by simp, rfl⟩

theorem returns_deactivate (item : Item) :
    Returns env w (under g (deactivate item : Guarded σ EngineError Unit)) fun t r =>
      ∃ a, t.exchanges = [⟨.setItemActive item false, a⟩] ∧ r = (a, g.rememberDeactivated item) := by
  unfold deactivate
  rw [under_modify_bind]
  apply returns_ask_bind
  · intro raised e
    exact ⟨.error e, by simp, rfl⟩
  · intro raised a w₁ _
    apply returns_note
    exact ⟨.ok a, by simp, rfl⟩

/-- How the creation of a temporary test set may go. -/
inductive Creation (g : Guard) (name : TestSetName) (scenarios : List Scenario) :
    List Exchange → Except EngineError TestSet × Guard → Prop
  | refused (e) : g.Creation name scenarios [⟨.createTestSet g.project name, .error e⟩] (.error e, g)
  | unfilled (testSet e) : g.Creation name scenarios
    [⟨.createTestSet g.project name, .ok testSet⟩, ⟨.addScenarios testSet scenarios, .error e⟩]
    (.error e, g.rememberTemporary testSet)
  | done (testSet) : g.Creation name scenarios
    [⟨.createTestSet g.project name, .ok testSet⟩, ⟨.addScenarios testSet scenarios, .ok ()⟩]
    (.ok testSet, g.rememberTemporary testSet)

theorem returns_createTemporary (name : TestSetName) (scenarios : List Scenario) :
    Returns env w (under g (createTemporary name scenarios : Guarded σ EngineError TestSet))
      fun t r => g.Creation name scenarios t.exchanges r := by
  unfold createTemporary
  rw [under_get_bind]
  apply returns_ask_bind
  · intro raised e
    simpa using Creation.refused e
  · intro raised testSet w₁ _
    rw [under_modify_bind]
    apply returns_ask_bind
    · intro raised' e
      simpa using Creation.unfilled testSet e
    · intro raised' a w₂ _
      apply returns_note_bind
      intro w₃
      apply returns_pure
      simpa using Creation.done testSet

/-- How the assignment of a test set to an item may go. -/
inductive Assignment (g : Guard) (item : Item) (testSet : TestSet) :
    List Exchange → Except EngineError Unit × Guard → Prop
  | unread (e) (fresh : item ∉ g.reassigned) :
    g.Assignment item testSet [⟨.itemTestSet item, .error e⟩] (.error e, g)
  | first (former a) (fresh : item ∉ g.reassigned) : g.Assignment item testSet
    [⟨.itemTestSet item, .ok former⟩, ⟨.setItemTestSet item (some testSet), a⟩]
    (a, g.rememberTestSet item former)
  | next (a) (known : item ∈ g.reassigned) :
    g.Assignment item testSet [⟨.setItemTestSet item (some testSet), a⟩] (a, g)

theorem returns_assign (item : Item) (testSet : TestSet) :
    Returns env w (under g (assign item testSet : Guarded σ EngineError Unit))
      fun t r => g.Assignment item testSet t.exchanges r := by
  unfold assign
  rw [under_get_bind]
  by_cases known : item ∈ g.reassigned
  · rw [if_pos known]
    apply returns_ask_bind
    · intro raised e
      simpa using Assignment.next (.error e) known
    · intro raised a w₁ _
      apply returns_note
      simpa using Assignment.next (.ok a) known
  · rw [if_neg known]
    apply returns_ask_bind
    · intro raised e
      simpa using Assignment.unread e known
    · intro raised former w₁ _
      rw [under_modify_bind]
      apply returns_ask_bind
      · intro raised' e
        simpa using Assignment.first former (.error e) known
      · intro raised' a w₂ _
        apply returns_note
        simpa using Assignment.first former (.ok a) known

theorem Carries.of_block {K : Call → Prop} {t : Trace} {r : Except ε α × Guard}
    (hb : g.Block t.exchanges) (hm : r.2 = g.rememberAll t.exchanges)
    (hk : ∀ x ∈ t.exchanges, K x.call) (hh : ∀ x ∈ t.exchanges.dropLast, x.succeeded)
    (hf : r.1.isOk = true → ∀ x ∈ t.exchanges, x.succeeded) : Carries K g t r :=
  ⟨.single hb, hm, hk, hh, hf⟩

theorem Assignment.carries {item : Item} {testSet : TestSet} {items : List Item} {t : Trace}
    {r : Except EngineError Unit × Guard} (h : g.Assignment item testSet t.exchanges r)
    (hi : item ∈ items) : Carries (Assigns items) g t r := by
  have hr : ∀ i, some item = some i → i ∈ items := fun i he => Option.some.inj he ▸ hi
  have hread : Assigns items (.itemTestSet item) := ⟨⟨rfl, hr⟩, rfl⟩
  have hset : Assigns items (.setItemTestSet item (some testSet)) := ⟨⟨rfl, hr⟩, rfl⟩
  generalize hx : t.exchanges = xs at h
  cases h with
  | unread e fresh =>
    apply Carries.of_block <;> rw [hx]
    · exact .unread item e fresh
    · rfl
    · simpa using hread
    · simp
    · simp
  | first former a fresh =>
    apply Carries.of_block <;> rw [hx]
    · exact .firstAssign item former testSet a fresh
    · rfl
    · simpa using ⟨hread, hset⟩
    · simp
    · simp
  | next a known =>
    apply Carries.of_block <;> rw [hx]
    · exact .nextAssign item testSet a known
    · rfl
    · simpa using hset
    · simp
    · simp

theorem Creation.carries {name : TestSetName} {scenarios : List Scenario} {items : List Item}
    {t : Trace} {r : Except EngineError TestSet × Guard}
    (h : g.Creation name scenarios t.exchanges r) : Carries (Change items) g t r := by
  have hn : ∀ i, none = some i → i ∈ items := nofun
  generalize hx : t.exchanges = xs at h
  cases h with
  | refused e =>
    apply Carries.of_block <;> rw [hx]
    · exact .uncreated name e
    · rfl
    · simpa using ⟨rfl, hn⟩
    · simp
    · simp
  | unfilled testSet e =>
    apply Carries.of_block <;> rw [hx]
    · exact .create name testSet scenarios (.error e)
    · rfl
    · simpa using ⟨⟨rfl, hn⟩, rfl, hn⟩
    · simp
    · simp
  | done testSet =>
    apply Carries.of_block <;> rw [hx]
    · exact .create name testSet scenarios (.ok ())
    · rfl
    · simpa using ⟨⟨rfl, hn⟩, rfl, hn⟩
    · simp
    · simp

/-- The calls of an assignment that went well. -/
inductive Assigned (item : Item) (testSet : TestSet) : List Exchange → Prop
  | first (former) : Assigned item testSet
    [⟨.itemTestSet item, .ok former⟩, ⟨.setItemTestSet item (some testSet), .ok ()⟩]
  | next : Assigned item testSet [⟨.setItemTestSet item (some testSet), .ok ()⟩]

/-- The calls of a creation that went well. -/
def created (project : Project) (name : TestSetName) (testSet : TestSet)
    (scenarios : List Scenario) : List Exchange :=
  [⟨.createTestSet project name, .ok testSet⟩, ⟨.addScenarios testSet scenarios, .ok ()⟩]

/-- The calls of a redirection that went well. -/
def redirections (configuration : Configuration) (dataDir reportDir : Option Path) :
    List Exchange :=
  (dataDir.toList.map fun path => ⟨.setDataDir configuration path, .ok ()⟩) ++
    reportDir.toList.map fun path => ⟨.setReportDir configuration path, .ok ()⟩

theorem performs_assign (item : Item) (testSet : TestSet) {items : List Item} (hi : item ∈ items) :
    Performs env w g (assign item testSet) (Assigns items) (fun _ => True)
      fun xs _ => Assigned item testSet xs := by
  apply (returns_assign item testSet).mono
  intro t r h
  refine ⟨h.carries hi, fun _ _ => trivial, fun a ha => ?_⟩
  generalize t.exchanges = xs at h
  cases h with
  | unread e fresh => cases ha
  | first former b fresh => cases ha; exact .first former
  | next b known => cases ha; exact .next

theorem performs_createTemporary (name : TestSetName) (scenarios : List Scenario)
    (items : List Item) :
    Performs env w g (createTemporary name scenarios) (Change items) (fun _ => True)
      fun xs testSet => xs = created g.project name testSet scenarios := by
  apply (returns_createTemporary name scenarios).mono
  intro t r h
  refine ⟨h.carries, fun _ _ => trivial, fun testSet hr => ?_⟩
  generalize t.exchanges = xs at h
  cases h with
  | refused e => cases hr
  | unfilled testSet e => cases hr
  | done testSet => cases hr; rfl

theorem performs_deactivate (item : Item) {items : List Item} (hi : item ∈ items) :
    Performs env w g (deactivate item) (Change items) (fun _ => True)
      fun xs _ => xs = [⟨.setItemActive item false, .ok ()⟩] := by
  apply (returns_deactivate item).mono
  intro t r h
  obtain ⟨a, hx, rfl⟩ := h
  refine ⟨?_, fun _ _ => trivial, ?_⟩
  · apply Carries.of_block <;> rw [hx]
    · exact .deactivate item a
    · rfl
    · simpa using ⟨rfl, fun i he => Option.some.inj he ▸ hi⟩
    · simp
    · simp
  · intro u hu
    cases hu
    exact hx

theorem carries_redirect {x : Exchange} {t : Trace} {r : Except EngineError Unit}
    (hb : g.Block [x]) (hx : t.exchanges = [x]) (hk : x.call.isRedirect = true)
    (hr : x.succeeded ↔ r.isOk = true) :
    Carries (fun c => c.isRedirect = true) g t (r, g.markDirectories) := by
  -- the first redirection marks the directories as changed, the second one finds them so
  have hm : g.markDirectories = g.remember x := by
    cases hb with
    | redirectData path a => rfl
    | redirectReport path a => rfl
    | unread | nextAssign | deactivate | uncreated => cases hk
  apply Carries.of_block <;> rw [hx]
  · exact hb
  · exact hm
  · simpa using hk
  · simp
  · simpa using hr.mpr

theorem carries_redirectData {path : Path} {t : Trace} {a : Except EngineError Unit}
    (hx : t.exchanges = [⟨.setDataDir g.configuration path, a⟩]) :
    Carries (fun c => c.isRedirect = true) g t (a, g.markDirectories) :=
  carries_redirect (.redirectData path a) hx rfl Iff.rfl

theorem carries_redirectReport {path : Path} {t : Trace} {a : Except EngineError Unit}
    (hx : t.exchanges = [⟨.setReportDir g.configuration path, a⟩]) :
    Carries (fun c => c.isRedirect = true) g t (a, g.markDirectories) :=
  carries_redirect (.redirectReport path a) hx rfl Iff.rfl

theorem under_redirectDirectories_none (g : Guard) :
    under g (redirectDirectories none none : Guarded σ EngineError Unit) = under g (pure ()) :=
  rfl

theorem under_redirectDirectories_report (g : Guard) (report : Path) :
    under g (redirectDirectories none (some report) : Guarded σ EngineError Unit) =
      under g.markDirectories (redirectReport report) := by
  unfold redirectDirectories
  rw [Option.isNone_none, Option.isNone_some, Bool.true_and, if_neg Bool.false_ne_true,
    under_modify_bind]

theorem under_redirectDirectories_data (g : Guard) (data : Path) :
    under g (redirectDirectories (some data) none : Guarded σ EngineError Unit) =
      under g.markDirectories (redirectData data >>= fun _ => pure ()) := by
  unfold redirectDirectories
  rw [Option.isNone_some, Bool.false_and, if_neg Bool.false_ne_true, under_modify_bind]

theorem under_redirectDirectories_both (g : Guard) (data report : Path) :
    under g (redirectDirectories (some data) (some report) : Guarded σ EngineError Unit) =
      under g.markDirectories (redirectData data >>= fun _ => redirectReport report) := by
  unfold redirectDirectories
  rw [Option.isNone_some, Bool.false_and, if_neg Bool.false_ne_true, under_modify_bind]

theorem performs_redirectDirectories (dataDir reportDir : Option Path) :
    Performs env w g (redirectDirectories dataDir reportDir) (fun c => c.isRedirect = true)
      (fun _ => True) fun xs _ => xs = redirections g.configuration dataDir reportDir := by
  unfold Performs
  -- none, one or both of the directories are asked for
  rcases dataDir with _ | data <;> rcases reportDir with _ | report
  · rw [under_redirectDirectories_none]
    exact returns_pure ⟨.still rfl, fun _ _ => trivial, fun _ _ => rfl⟩
  · rw [under_redirectDirectories_report]
    apply (returns_redirectReport report).mono
    intro t r h
    obtain ⟨a, hx, rfl⟩ := h
    refine ⟨carries_redirectReport hx, fun _ _ => trivial, fun u hu => ?_⟩
    cases hu
    exact hx
  · rw [under_redirectDirectories_data]
    apply returns_bind (returns_redirectData data)
    · intro t e g₁ h
      obtain ⟨a, hx, hr⟩ := h
      cases hr
      exact ⟨carries_redirectData hx, fun _ _ => trivial, nofun⟩
    · intro t a g₁ w₁ _ h
      obtain ⟨b, hx, hr⟩ := h
      cases hr
      have hc := carries_redirectData (g := g) hx
      refine returns_pure ⟨hc.append (.still rfl), fun _ _ => trivial, fun _ _ => ?_⟩
      rw [Trace.append_nil, hx]
      rfl
  · rw [under_redirectDirectories_both]
    apply returns_bind (returns_redirectData data)
    · intro t e g₁ h
      obtain ⟨a, hx, hr⟩ := h
      cases hr
      exact ⟨carries_redirectData hx, fun _ _ => trivial, nofun⟩
    · intro t a g₁ w₁ _ h
      obtain ⟨b, hx, hr⟩ := h
      cases hr
      have hc := carries_redirectData (g := g) hx
      apply (returns_redirectReport report).mono
      intro t' r h
      obtain ⟨c, hx', rfl⟩ := h
      have hc' := carries_redirectReport (g := g.markDirectories) hx'
      refine ⟨hc.append hc', fun _ _ => trivial, fun u hu => ?_⟩
      cases hu
      rw [Trace.exchanges_append, hx, hx']
      rfl

end Guard

end GuardedRun
