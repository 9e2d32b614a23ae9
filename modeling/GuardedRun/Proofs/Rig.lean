import GuardedRun.Proofs.Contents

/-! An engine that is faithful whatever goes wrong with its calls, to try orchestrations on. -/

namespace GuardedRun

open Contents

/-- What may go wrong with a call: it is refused, or it is served and its reply is lost. -/
inductive Mishap
  | refused
  | lost

/-- An engine with contents, and with a schedule of what goes wrong. -/
structure Rig where
  contents : Contents
  referenced : List ObjectId
  /-- No item refers to a test set of another id. -/
  complete : ∀ item id, contents.held item = some id → id ∈ referenced
  /-- The ids to choose from for test sets to come. -/
  supply : List ObjectId := []
  mishaps : List (Option Mishap) := []
  /-- How many events there are until the interrupt comes in. -/
  alarm : Option Nat := none

namespace Rig

def isUnused (rig : Rig) (id : ObjectId) : Bool :=
  id ∉ rig.referenced ∧ rig.contents.testSets.all fun s => s.testSet.id ≠ id

theorem unused {rig : Rig} {id : ObjectId} (h : rig.isUnused id = true) : rig.contents.Unused id := by
  obtain ⟨hreferenced, hkept⟩ := of_decide_eq_true h
  constructor
  · intro s hs
    simpa using List.all_eq_true.mp hkept s hs
  · intro item hheld
    exact hreferenced (rig.complete item id hheld)

/-- The rig with other contents, in which the items refer to the same test sets. -/
def become (rig : Rig) (contents : Contents) (h : contents.held = rig.contents.held) : Rig :=
  { rig with contents, complete := h ▸ rig.complete }

/-- The rig with an item that refers to another test set. -/
def refer (rig : Rig) (item : ObjectId) (testSet : Option ObjectId) : Rig :=
  { rig with
    contents := { rig.contents with held := put rig.contents.held item testSet }
    referenced := testSet.toList ++ rig.referenced
    complete := by
      intro other id hheld
      change put rig.contents.held item testSet other = some id at hheld
      by_cases hitem : other = item
      · rw [hitem, put_same] at hheld
        rw [hheld]
        exact List.mem_append_left _ (List.mem_singleton.mpr rfl)
      · rw [put_other _ _ hitem] at hheld
        exact List.mem_append_right _ (rig.complete other id hheld) }

/-- What comes of a call that nothing stands against, if it can be served at all. -/
def perform : (call : Call) → Rig → Option (call.Reply × Rig)
  | .ping, rig => some ((), rig)
  | .openProjects, rig => some (rig.contents.projects, rig)
  | .openProject path, rig =>
    let project : Project := { id := ⟨path.text⟩, path }
    let projects := rig.contents.projects ++ [project]
    some (project, rig.become { rig.contents with projects } rfl)
  | .closeProject project, rig =>
    let projects := rig.contents.projects.filter (·.id ≠ project.id)
    some ((), rig.become { rig.contents with projects } rfl)
  | .configurations project, rig => some (rig.contents.configurations project.id, rig)
  | .testSets project, rig => some (rig.contents.listed project.id, rig)
  | .scenarioTree project, rig => some (rig.contents.tree project.id, rig)
  | .createTestSet project name, rig =>
    (rig.supply.find? rig.isUnused).map fun id =>
      let testSet : TestSet := { id, name }
      let testSets := rig.contents.testSets ++ [⟨project.id, testSet, []⟩]
      (testSet, rig.become { rig.contents with testSets } rfl)
  | .deleteTestSet project testSet, rig =>
    some ((), rig.become (rig.contents.remove project.id testSet.id) rfl)
  | .scenarios testSet, rig => (rig.contents.set? testSet.id).map fun s => (s.scenarios, rig)
  | .addScenarios testSet scenarios, rig =>
    some ((), rig.become (rig.contents.extend testSet.id scenarios) rfl)
  | .items configuration, rig => some (rig.contents.items configuration.id, rig)
  | .dataDir configuration, rig => some (rig.contents.dataDir configuration.id, rig)
  | .setDataDir configuration path, rig =>
    let dataDir := put rig.contents.dataDir configuration.id path
    some ((), rig.become { rig.contents with dataDir } rfl)
  | .reportDir configuration, rig => some (rig.contents.reportDir configuration.id, rig)
  | .setReportDir configuration path, rig =>
    let reportDir := put rig.contents.reportDir configuration.id path
    some ((), rig.become { rig.contents with reportDir } rfl)
  | .itemActive item, rig => some (rig.contents.active item.id, rig)
  | .setItemActive item active, rig =>
    let active := put rig.contents.active item.id active
    some ((), rig.become { rig.contents with active } rfl)
  | .itemTestSet item, rig => some (rig.contents.reported item.id, rig)
  | .setItemTestSet item testSet, rig => some ((), rig.refer item.id (testSet.map (·.id)))
  | .run _, rig => some ({ id := ⟨"execution"⟩ }, rig)
  | .regenerateReport _, rig => some ({ id := ⟨"execution"⟩ }, rig)
  | .progress _, rig => some ({ running := false, pending := false }, rig)
  | .cancel _, rig => some ((), rig)

theorem takes_of_perform {call : Call} {rig rig' : Rig} {reply : call.Reply}
    (h : rig.perform call = some (reply, rig')) : Takes call reply rig.contents rig'.contents := by
  cases call with
  | createTestSet project name =>
    obtain ⟨id, hid, hmade⟩ := Option.map_eq_some_iff.mp h
    cases hmade
    have hunused := unused (List.find?_some hid)
    exact ⟨rfl, hunused, _, [], (List.append_nil _).symm, rfl⟩
  | scenarios testSet =>
    obtain ⟨s, hset, hread⟩ := Option.map_eq_some_iff.mp h
    cases hread
    exact ⟨⟨s, hset, rfl⟩, rfl⟩
  | addScenarios testSet scenarios =>
    cases h
    exact ⟨scenarios, rfl, rfl⟩
  | setItemTestSet item testSet =>
    cases h
    exact .inl rfl
  | closeProject | deleteTestSet | setDataDir | setReportDir | setItemActive =>
    cases h
    rfl
  | ping | run | regenerateReport | progress | cancel =>
    cases h
    exact ⟨trivial, rfl⟩
  | _ =>
    cases h
    exact ⟨rfl, rfl⟩

/-- The rig after something happened. -/
def tick (rig : Rig) : Rig := { rig with alarm := rig.alarm.map (· - 1) }

/-- The rig after the next mishap, or the lack of one. -/
def proceed (rig : Rig) : Rig := { rig.tick with mishaps := rig.mishaps.tail }

/-- The answer to a call. A test set whose creation fails is not there. -/
def answer (call : Call) (rig : Rig) : Except EngineError call.Reply × Rig :=
  let refusal : EngineError := .application call.method "refused" []
  match rig.mishaps.head?.join, rig.proceed.perform call with
  | none, some (reply, after) => (.ok reply, after)
  | some .lost, some (_, after) =>
    (.error (.communication call.method "lost"), if call.isCreation then rig.proceed else after)
  | _, _ => (.error refusal, rig.proceed)

def environment : Environment Rig where
  answer := answer
  launch := fun _ _ rig => (.error "nothing is started on a rig", rig.tick)
  pause := fun _ rig => rig.tick
  isFile := fun _ _ => false
  interrupted := fun rig => rig.alarm = some 0
  clock := fun _ => 0
  stamp := fun _ => .ofMilliseconds 0

/-- A rig keeps contents faithfully under every schedule of mishaps and interrupts. -/
theorem faithful : Faithful environment contents where
  answers call rig := by
    change Exchange.Serves ⟨call, (rig.answer call).1⟩ rig.contents (rig.answer call).2.contents
    have hsame : rig.proceed.contents = rig.contents := rfl
    unfold answer
    split
    · next reply after hmishap hperform =>
      have htakes := takes_of_perform hperform
      rwa [hsame] at htakes
    · next reply after hmishap hperform =>
      have htakes := takes_of_perform hperform
      rw [hsame] at htakes
      cases hcreation : call.isCreation with
      | true => exact .inl rfl
      | false => exact .inr ⟨hcreation, reply, htakes⟩
    · exact .inl rfl
  pauses _ _ := rfl
  launches _ _ _ := rfl

/-- A rig with three items: one that runs a login and a logout, one that runs a search, and one that is
off. -/
def small (mishaps : List (Option Mishap)) : Rig where
  contents :=
    { projects := [⟨⟨"p"⟩, ⟨"/work/shop"⟩⟩]
      configurations := fun _ => [⟨⟨"c"⟩, .nightly⟩]
      tree := fun _ => [.scenario ⟨⟨"s1"⟩, .login⟩,
        .scenario ⟨⟨"s2"⟩, ⟨"Search", by decide +kernel⟩⟩]
      items := fun _ => [⟨⟨"i1"⟩, 0⟩, ⟨⟨"i2"⟩, 1⟩, ⟨⟨"i3"⟩, 2⟩]
      dataDir := fun _ => ⟨"/data"⟩
      reportDir := fun _ => ⟨"/reports"⟩
      active := fun id => id ≠ ⟨"i3"⟩
      held := fun id => if id = ⟨"i1"⟩ then some ⟨"t1"⟩ else if id = ⟨"i2"⟩ then some ⟨"t2"⟩ else none
      testSets :=
        [⟨⟨"p"⟩, ⟨⟨"t1"⟩, ⟨"Session", by decide +kernel⟩⟩,
          [⟨⟨"s3"⟩, .login⟩, ⟨⟨"s4"⟩, ⟨"Logout", by decide +kernel⟩⟩]⟩,
        ⟨⟨"p"⟩, ⟨⟨"t2"⟩, ⟨"Catalogue", by decide +kernel⟩⟩,
          [⟨⟨"s5"⟩, ⟨"Search", by decide +kernel⟩⟩]⟩] }
  referenced := [⟨"t1"⟩, ⟨"t2"⟩]
  complete := by
    intro item id hheld
    dsimp only at hheld
    split at hheld
    · cases hheld
      exact List.mem_cons_self
    · split at hheld
      · cases hheld
        exact List.mem_cons_of_mem _ List.mem_cons_self
      · cases hheld
  supply := [⟨"m1"⟩, ⟨"m2"⟩]
  mishaps

theorem distinct_small (mishaps : List (Option Mishap)) : (small mishaps).contents.Distinct := by
  intro configuration
  change List.Pairwise _ [_, _, _]
  decide

end Rig

end GuardedRun
