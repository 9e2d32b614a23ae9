import GuardedRun.Proofs.Footprint
import GuardedRun.Proofs.Operations
import GuardedRun.Proofs.Recovery

/-! Blame. A report of a restore names what it is about: an item, a directory, a test set. Whatever was
done under a guard, and whatever failed, each part that a restore leaves other than it was is named. -/

namespace GuardedRun

open Session Guard Contents

variable {σ : Type} {env : Environment σ}

namespace RestoreFailure

/-- What the message of a failure says it is about. -/
def subject? : RestoreFailure → Option String
  | testSet item _ => some ("restore test set of " ++ item.describe)
  | stillAssigned item _ => some ("clear test set of " ++ item.describe)
  | unverified item _ => some ("verify cleared test set of " ++ item.describe)
  | dataDir _ => some "reset data directory"
  | reportDir _ => some "reset report directory"
  | deletion set _ => some ("delete temporary test set `" ++ set.name.text ++ "`")
  | dangling _ _ => none
  | activation item _ => some ("reactivate " ++ item.describe)

theorem message_of_subject? {f : RestoreFailure} {subject : String} (h : f.subject? = some subject) :
    ∃ cause, f.message = subject ++ ": " ++ cause := by
  cases f with
  | testSet item cause =>
    cases h
    exact ⟨cause.message, rfl⟩
  | stillAssigned item set =>
    cases h
    refine ⟨"still assigned `" ++ set.name.text ++ "` after clearing", ?_⟩
    have hcolon : ": still assigned `" = ": " ++ "still assigned `" := rfl
    change "clear test set of " ++ item.describe ++ ": still assigned `" ++ set.name.text ++
      "` after clearing" = _
    rw [hcolon]
    simp only [String.append_assoc]
  | unverified item cause =>
    cases h
    exact ⟨cause.message, rfl⟩
  | dataDir cause =>
    cases h
    exact ⟨cause.message, rfl⟩
  | reportDir cause =>
    cases h
    exact ⟨cause.message, rfl⟩
  | deletion set cause =>
    cases h
    refine ⟨cause.message, ?_⟩
    have hcolon : "`: " = "`" ++ ": " := rfl
    change "delete temporary test set `" ++ set.name.text ++ "`: " ++ cause.message = _
    rw [hcolon]
    simp only [String.append_assoc]
  | dangling item set => cases h
  | activation item cause =>
    cases h
    exact ⟨cause.message, rfl⟩

/-- The item whose test set could not be given back, or was not seen to be. -/
def unreturned? : RestoreFailure → Option Item
  | testSet item _ | stillAssigned item _ | unverified item _ => some item
  | _ => none

end RestoreFailure

/-- One of the messages is about a subject. -/
def Mentions (messages : List String) (subject : String) : Prop :=
  ∃ cause, subject ++ ": " ++ cause ∈ messages

theorem mentions_of_mem {failures : List RestoreFailure} {f : RestoreFailure} {subject : String}
    (hf : f ∈ failures) (hsubject : f.subject? = some subject) :
    Mentions (failures.map (·.message)) subject := by
  obtain ⟨cause, hmessage⟩ := RestoreFailure.message_of_subject? hsubject
  exact ⟨cause, List.mem_map.mpr ⟨f, hf, hmessage⟩⟩

namespace Guard

variable {g : Guard} {xs : List Exchange} {failures : List RestoreFailure} {f : RestoreFailure}

/-- A failure is about something that the guard remembers. -/
def Remembers (g : Guard) : RestoreFailure → Prop
  | .testSet item _ | .stillAssigned item _ | .unverified item _ => item ∈ g.reassigned
  | .dangling item testSet => item ∈ g.reassigned ∧ testSet ∈ g.temporary
  | .dataDir _ | .reportDir _ => g.directoriesChanged = true
  | .deletion testSet _ => testSet ∈ g.temporary
  | .activation item _ => item ∈ g.deactivated

theorem Returned.blames {item : Item} {former still : Option TestSet}
    (h : Returned item former xs failures still) :
    (∀ f ∈ failures, f.unreturned? = some item) ∧
      ∀ testSet, still = some testSet → .stillAssigned item testSet ∈ failures := by
  cases h with
  | refused former e => simp [RestoreFailure.unreturned?]
  | given testSet => simp
  | cleared => simp
  | held still => simp [RestoreFailure.unreturned?]
  | unverified e => simp [RestoreFailure.unreturned?]

theorem ReturnedAll.blames {former : List (Item × Option TestSet)} {held : List (Item × TestSet)}
    (h : ReturnedAll former xs failures held) :
    (∀ f ∈ failures, ∃ item ∈ former.map (·.1), f.unreturned? = some item) ∧
      ∀ p ∈ held, p.1 ∈ former.map (·.1) ∧ .stillAssigned p.1 p.2 ∈ failures := by
  induction h with
  | nil => exact ⟨nofun, nofun⟩
  | @cons item former rest xs ys failures others still held first next ih =>
    obtain ⟨hfirst, hstill⟩ := first.blames
    obtain ⟨hnext, hheld⟩ := ih
    constructor
    · intro f hf
      rcases List.mem_append.mp hf with hf | hf
      · exact ⟨item, List.mem_cons_self, hfirst f hf⟩
      · obtain ⟨other, hother, hblamed⟩ := hnext f hf
        exact ⟨other, List.mem_cons_of_mem _ hother, hblamed⟩
    · intro p hp
      rcases List.mem_append.mp hp with hp | hp
      · obtain ⟨testSet, htestSet, rfl⟩ := List.mem_map.mp hp
        have hsome : still = some testSet := Option.mem_toList.mp htestSet
        exact ⟨List.mem_cons_self, List.mem_append_left _ (hstill testSet hsome)⟩
      · obtain ⟨hitem, hmem⟩ := hheld p hp
        exact ⟨List.mem_cons_of_mem _ hitem, List.mem_append_right _ hmem⟩

theorem Tried.blames {ι : Type} {call : ι → Call}
    {report : (i : ι) → Except EngineError (call i).Reply → List RestoreFailure} {is : List ι}
    (h : Tried call report is xs failures) : ∀ f ∈ failures, ∃ i ∈ is, ∃ a, f ∈ report i a := by
  induction h with
  | nil => exact nofun
  | cons i a next ih =>
    intro f hf
    rcases List.mem_append.mp hf with hf | hf
    · exact ⟨i, List.mem_cons_self, a, hf⟩
    · obtain ⟨j, hj, b, hreport⟩ := ih f hf
      exact ⟨j, List.mem_cons_of_mem _ hj, b, hreport⟩

theorem dangling_of_mem {held : List (Item × TestSet)} {testSet : TestSet}
    (hf : f ∈ dangling held testSet) : ∃ p ∈ held, f = .dangling p.1 testSet := by
  obtain ⟨p, hp, rfl⟩ := List.mem_map.mp hf
  exact ⟨p, (List.mem_filter.mp hp).1, rfl⟩

/-- A restore reports on nothing but what the guard remembers. An item that holds a test set which is gone
was reported to hold it before. -/
theorem Restores.blames (h : g.Restores xs failures) (hf : f ∈ failures) :
    g.Remembers f ∧ ∀ item, f.unsettled? = some item → ∃ f' ∈ failures, f'.unreturned? = some item := by
  cases h with
  | @all xs₁ xs₂ xs₃ xs₄ failures₁ failures₂ failures₃ failures₄ held testSets directories deletions
      activations =>
    obtain ⟨hreturned, hheld⟩ := testSets.blames
    simp only [List.mem_append, or_assoc] at hf
    rcases hf with hf | hf | hf | hf
    · obtain ⟨item, hitem, hblamed⟩ := hreturned f hf
      have hunsettled : f.unsettled? = some item := by
        cases f <;> first | exact hblamed | cases hblamed
      constructor
      · cases f <;> first | cases hblamed; exact hitem | cases hblamed
      · intro other hother
        rw [hunsettled] at hother
        cases hother
        exact ⟨f, by simp [hf], hblamed⟩
    · cases directories with
      | untouched unchanged => cases hf
      | tried changed a b =>
        rcases List.mem_append.mp hf with hf | hf
        · cases a with
          | ok u => cases hf
          | error e =>
            obtain rfl := List.mem_singleton.mp hf
            exact ⟨changed, nofun⟩
        · cases b with
          | ok u => cases hf
          | error e =>
            obtain rfl := List.mem_singleton.mp hf
            exact ⟨changed, nofun⟩
    · obtain ⟨testSet, htestSet, a, hreport⟩ := deletions.blames f hf
      cases a with
      | error e =>
        obtain rfl := List.mem_singleton.mp hreport
        exact ⟨htestSet, nofun⟩
      | ok u =>
        obtain ⟨p, hp, rfl⟩ := dangling_of_mem hreport
        obtain ⟨hitem, hmem⟩ := hheld p hp
        refine ⟨⟨hitem, htestSet⟩, fun item hsome => ⟨.stillAssigned p.1 p.2, ?_, hsome⟩⟩
        simp [hmem]
    · obtain ⟨item, hitem, a, hreport⟩ := activations.blames f hf
      cases a with
      | ok u => cases hreport
      | error e =>
        obtain rfl := List.mem_singleton.mp hreport
        exact ⟨hitem, nofun⟩

end Guard

namespace Exchange

variable {x : Exchange} {st st' : Contents}

theorem Serves.sets_eq (h : x.Serves st st') (hcreation : x.call.isCreation = false)
    (hdeleted : x.call.deleted? = none) :
    st'.testSets.map (·.testSet) = st.testSets.map (·.testSet) := by
  obtain ⟨call, a⟩ := x
  rcases h.effect with rfl | ⟨reply, htakes⟩
  · rfl
  · cases call with
    | createTestSet project name => cases hcreation
    | deleteTestSet project testSet => cases hdeleted
    | addScenarios testSet scenarios =>
      obtain ⟨added, -, rfl⟩ := htakes
      simp only [extend, List.map_map]
      apply List.map_congr_left
      intro s _
      dsimp only [Function.comp_apply]
      split <;> rfl
    | setItemTestSet item testSet => rcases htakes with rfl | ⟨-, rfl⟩ <;> rfl
    | closeProject | setDataDir | setReportDir | setItemActive =>
      obtain rfl := htakes
      rfl
    | _ =>
      obtain ⟨-, rfl⟩ := htakes
      rfl

theorem Serves.sets_subset (h : x.Serves st st') (hcreation : x.call.isCreation = false) :
    st'.testSets.map (·.testSet) ⊆ st.testSets.map (·.testSet) := by
  cases hdeleted : x.call.deleted? with
  | none =>
    rw [h.sets_eq hcreation hdeleted]
    exact List.Subset.refl _
  | some testSet =>
    obtain ⟨call, a⟩ := x
    cases call with
    | deleteTestSet project testSet' =>
      rcases h.effect with rfl | ⟨reply, rfl⟩
      · exact List.Subset.refl _
      · exact (List.filter_sublist.map _).subset
    | _ => cases hdeleted

end Exchange

theorem Evolves.sets_subset {st st' : Contents} {xs : List Exchange} (h : Evolves st xs st')
    (hcreation : ∀ x ∈ xs, x.call.isCreation = false) :
    st'.testSets.map (·.testSet) ⊆ st.testSets.map (·.testSet) := by
  induction h with
  | nil st => exact List.Subset.refl _
  | cons first rest ih =>
    have hlater := ih fun x hx => hcreation x (List.mem_cons_of_mem _ hx)
    exact List.Subset.trans hlater (first.sets_subset (hcreation _ List.mem_cons_self))

namespace Guard

variable {g : Guard} {xs : List Exchange}

/-- The temporary test sets that a guard remembers are there, and nothing else bears an id of theirs. -/
structure Tallies (g : Guard) (st : Contents) : Prop where
  present : ∀ t ∈ g.temporary, t ∈ st.testSets.map (·.testSet)
  named : ∀ t ∈ g.temporary, ∀ t' ∈ st.testSets.map (·.testSet), t'.id = t.id → t' = t

namespace Tallies

variable {st st' : Contents}

theorem congr {g' : Guard} (h : g.Tallies st) (hg : g'.temporary = g.temporary)
    (hsets : st'.testSets.map (·.testSet) = st.testSets.map (·.testSet)) : g'.Tallies st' := by
  constructor
  · rw [hg, hsets]
    exact h.present
  · rw [hg, hsets]
    exact h.named

theorem of_fresh (hg : g.Fresh) (st : Contents) : g.Tallies st := by
  constructor
  · rw [hg.temporary]
    exact nofun
  · rw [hg.temporary]
    exact nofun

/-- A test set under an unused id may be remembered, as soon as it is there. -/
theorem rememberTemporary (h : g.Tallies st) {project : ObjectId} {testSet : TestSet}
    {before after : List KeptSet} (hunused : st.Unused testSet.id) (hparts : st.testSets = before ++ after)
    (hsets : st'.testSets = before ++ ⟨project, testSet, []⟩ :: after) :
    (g.rememberTemporary testSet).Tallies st' := by
  have hmem (t : TestSet) : t ∈ st'.testSets.map (·.testSet) ↔
      t ∈ st.testSets.map (·.testSet) ∨ t = testSet := by
    rw [hsets, hparts]
    simp only [List.map_append, List.map_cons, List.mem_append, List.mem_cons]
    tauto
  have hfresh : ∀ t ∈ st.testSets.map (·.testSet), t.id ≠ testSet.id := by
    intro t ht
    obtain ⟨s, hs, rfl⟩ := List.mem_map.mp ht
    exact hunused.unkept s hs
  have hremembered (t : TestSet) : t ∈ (g.rememberTemporary testSet).temporary ↔
      t ∈ g.temporary ∨ t = testSet := by
    simp [Guard.rememberTemporary]
  constructor
  · intro t ht
    rw [hmem]
    exact ((hremembered t).mp ht).imp_left (h.present t)
  · intro t ht t' ht' hid
    rcases (hremembered t).mp ht with hold | rfl <;> rcases (hmem t').mp ht' with hold' | rfl
    · exact h.named t hold t' hold' hid
    · exact absurd hid.symm (hfresh t (h.present t hold))
    · exact absurd hid (hfresh t' hold')
    · rfl

/-- A call that deletes nothing keeps the tally, be it answered or not. -/
theorem remember (h : g.Tallies st) {x : Exchange} (hx : x.Serves st st')
    (hdeleted : x.call.deleted? = none) : (g.remember x).Tallies st' := by
  cases hcreation : x.call.isCreation with
  | false =>
    have huncreated : x.created? = none := by
      obtain ⟨call, a⟩ := x
      cases call <;> first | rfl | cases hcreation
    apply h.congr
    · rw [temporary_remember, huncreated]
      exact List.append_nil _
    · exact hx.sets_eq hcreation hdeleted
  | true =>
    obtain ⟨call, a⟩ := x
    cases call with
    | createTestSet project name =>
      cases a with
      | error e =>
        obtain rfl := hx.uncreated
        exact h
      | ok testSet =>
        obtain ⟨-, hunused, before, after, hparts, rfl⟩ := hx.took
        exact h.rememberTemporary hunused hparts rfl
    | _ => cases hcreation

theorem rememberAll (h : g.Tallies st) (hev : Evolves st xs st')
    (hdeleted : ∀ x ∈ xs, x.call.deleted? = none) : (g.rememberAll xs).Tallies st' := by
  induction hev generalizing g with
  | nil st => exact h
  | cons first rest ih =>
    have hnext := h.remember first (hdeleted _ List.mem_cons_self)
    exact ih hnext fun x hx => hdeleted x (List.mem_cons_of_mem _ hx)

end Tallies

end Guard

/-- Each part of the contents that is not the way it was is named by a message; an item is one that was given
a test set, or was switched off, under the guard. -/
structure Contents.Named (operations : List Operation) (messages : List String) (st st' : Contents) :
    Prop where
  configurations : st'.configurations = st.configurations
  tree : st'.tree = st.tree
  items : st'.items = st.items
  dataDir : ∀ id, st'.dataDir id ≠ st.dataDir id → Mentions messages "reset data directory"
  reportDir : ∀ id, st'.reportDir id ≠ st.reportDir id → Mentions messages "reset report directory"
  testSet : ∀ id, st'.reported id ≠ st.reported id →
    ∃ item testSet, .assign item testSet ∈ operations ∧ item.id = id ∧
      (Mentions messages ("restore test set of " ++ item.describe) ∨
        Mentions messages ("clear test set of " ++ item.describe) ∨
          Mentions messages ("verify cleared test set of " ++ item.describe))
  active : ∀ id, st'.active id ≠ st.active id → ∃ item, .deactivate item ∈ operations ∧ item.id = id ∧
    Mentions messages ("reactivate " ++ item.describe)
  /-- All former test sets are there, unchanged, and those beside them could not be deleted. -/
  testSets : ∃ made : List ObjectId, (st'.testSets.filter fun s => s.testSet.id ∉ made) = st.testSets ∧
    ∀ s ∈ st'.testSets, s.testSet.id ∈ made →
      Mentions messages ("delete temporary test set `" ++ s.testSet.name.text ++ "`")

namespace Guard

variable {g : Guard} {xs : List Exchange} {failures : List RestoreFailure}

theorem mentions_of_unreturned? {f : RestoreFailure} {item : Item} (hf : f ∈ failures)
    (hitem : f.unreturned? = some item) :
    Mentions (failures.map (·.message)) ("restore test set of " ++ item.describe) ∨
      Mentions (failures.map (·.message)) ("clear test set of " ++ item.describe) ∨
        Mentions (failures.map (·.message)) ("verify cleared test set of " ++ item.describe) := by
  cases f with
  | testSet item' e =>
    cases hitem
    exact .inl (mentions_of_mem hf rfl)
  | stillAssigned item' still =>
    cases hitem
    exact .inr (.inl (mentions_of_mem hf rfl))
  | unverified item' e =>
    cases hitem
    exact .inr (.inr (mentions_of_mem hf rfl))
  | _ => cases hitem

/-- What is accounted for by the failures of a restore is named by their messages. -/
theorem Restores.names {operations : List Operation} {st₀ st st' : Contents}
    (h : g.Restores xs failures) (hev : Evolves st xs st') (htallies : g.Tallies st)
    (haccounted : Accounted failures st₀ st')
    (hassigned : ∀ item ∈ g.reassigned, ∃ testSet, .assign item testSet ∈ operations)
    (hdeactivated : ∀ item ∈ g.deactivated, .deactivate item ∈ operations) :
    Contents.Named operations (failures.map (·.message)) st₀ st' where
  configurations := haccounted.configurations
  tree := haccounted.tree
  items := haccounted.items
  dataDir id hne := by
    obtain ⟨e, he⟩ := haccounted.dataDir.resolve_left fun heq => hne (congrFun heq id)
    exact mentions_of_mem he rfl
  reportDir id hne := by
    obtain ⟨e, he⟩ := haccounted.reportDir.resolve_left fun heq => hne (congrFun heq id)
    exact mentions_of_mem he rfl
  testSet id hne := by
    obtain ⟨f, hf, item, hitem, hid⟩ := (haccounted.reported id).resolve_left hne
    obtain ⟨-, hreturned⟩ := h.blames hf
    -- an item that is left with a deleted test set was not cleared before
    obtain ⟨f', hf', hitem'⟩ := hreturned item hitem
    have hremembered : item ∈ g.reassigned := by
      have hremembers := (h.blames hf').1
      cases f' <;> first | cases hitem'; exact hremembers | cases hitem'
    obtain ⟨testSet, hoperation⟩ := hassigned item hremembered
    exact ⟨item, testSet, hoperation, hid, mentions_of_unreturned? hf' hitem'⟩
  active id hne := by
    obtain ⟨item, e, he, hid⟩ := (haccounted.active id).resolve_left hne
    exact ⟨item, hdeactivated item (h.blames he).1, hid, mentions_of_mem he rfl⟩
  testSets := by
    obtain ⟨made, hkept, hleft⟩ := haccounted.testSets
    refine ⟨made, hkept, fun s hs hmade => ?_⟩
    obtain ⟨testSet, e, he, hid⟩ := hleft s hs hmade
    have hremembered : testSet ∈ g.temporary := (h.blames he).1
    have huncreating : ∀ x ∈ xs, x.call.isCreation = false := fun x hx =>
      (h.comprises.undoes (List.Subset.refl _) x hx).uncreating
    -- a restore makes nothing, so what is there now was there already, and the tally tells it by its id
    have hthere : s.testSet ∈ st.testSets.map (·.testSet) :=
      hev.sets_subset huncreating (List.mem_map_of_mem hs)
    have hsame : s.testSet = testSet := htallies.named testSet hremembered s.testSet hthere hid.symm
    rw [hsame]
    exact mentions_of_mem he rfl

/-- The items that some operations give test sets to. -/
def Operation.assigned? : Operation → Option Item
  | assign item _ => some item
  | _ => none

theorem Operation.mem_assigned {operations : List Operation} {item : Item} :
    item ∈ operations.filterMap assigned? ↔ ∃ testSet, .assign item testSet ∈ operations := by
  rw [List.mem_filterMap]
  constructor
  · rintro ⟨operation, hmem, hitem⟩
    cases operation with
    | assign item' testSet =>
      cases hitem
      exact ⟨testSet, hmem⟩
    | _ => cases hitem
  · rintro ⟨testSet, hmem⟩
    exact ⟨_, hmem, rfl⟩

theorem Started.fresh {project : Project} {c : Configuration} {st : Contents}
    (h : Started project c xs (.ok g)) (ha : st.Agrees xs) :
    g.Fresh ∧ g.formerDataDir = st.dataDir g.configuration.id ∧
      g.formerReportDir = st.reportDir g.configuration.id := by
  cases h with
  | both data report =>
    have hdata : data = st.dataDir c.id := ha (.dataDir c) data (by simp) nofun
    have hreport : report = st.reportDir c.id := ha (.reportDir c) report (by simp) nofun
    exact ⟨⟨rfl, rfl, rfl, rfl⟩, hdata, hreport⟩

theorem Started.plans {project : Project} {c : Configuration} {r : Except EngineError Guard}
    (h : Started project c xs r) : ∀ x ∈ xs, x.Plans := by
  have hdata (a) : Exchange.Plans ⟨.dataDir c, a⟩ := .inl rfl
  have hreport (a) : Exchange.Plans ⟨.reportDir c, a⟩ := .inl rfl
  cases h with
  | unread e => simpa using hdata (.error e)
  | half data e => simpa using ⟨hdata (.ok data), hreport (.error e)⟩
  | both data report => simpa using ⟨hdata (.ok data), hreport (.ok report)⟩

theorem Rehearsed.names {project : Project} {c : Configuration} {operations : List Operation}
    {r : Except EngineError (List RestoreFailure)} {st st' : Contents}
    (h : Rehearsed project c operations xs r)
    (hactive : ∀ item, .deactivate item ∈ operations → st.active item.id = true)
    (hsame : ∀ i t j t', .assign i t ∈ operations → .assign j t' ∈ operations → i.id = j.id → i = j)
    (hev : Evolves st xs st') :
    match r with
    | .error _ => st.Same st'
    | .ok failures => st.Named operations (failures.map (·.message)) st' := by
  cases h with
  | unstarted started => exact (hev.of_plans started.plans).1.same
  | @restored xs ys zs g failures started blocks made restores =>
    obtain ⟨st₁, hstarted, hev⟩ := passes_append.mp hev
    obtain ⟨st₂, hchanged, hrestored⟩ := passes_append.mp hev
    obtain ⟨hbesides, hagrees⟩ := Evolves.of_plans hstarted started.plans
    obtain ⟨hfresh, hdata, hreport⟩ := started.fresh hagrees
    have hread : ∀ item a, ⟨.itemTestSet item, a⟩ ∈ ys → item ∈ operations.filterMap Operation.assigned? := by
      intro item a hx
      obtain ⟨operation, hoperation, hmakes⟩ := made _ hx
      obtain ⟨testSet, rfl⟩ := hmakes.reads
      exact Operation.mem_assigned.mpr ⟨testSet, hoperation⟩
    have hswitched : ∀ item active a, ⟨.setItemActive item active, a⟩ ∈ ys →
        .deactivate item ∈ operations := by
      intro item active a hx
      obtain ⟨operation, hoperation, hmakes⟩ := made _ hx
      rwa [hmakes.switches] at hoperation
    have hdistinct : ∀ i ∈ operations.filterMap Operation.assigned?,
        ∀ j ∈ operations.filterMap Operation.assigned?, i.id = j.id → i = j := by
      intro i hi j hj
      obtain ⟨t, hi⟩ := Operation.mem_assigned.mp hi
      obtain ⟨t', hj⟩ := Operation.mem_assigned.mp hj
      exact hsame i t j t' hi hj
    have htracks : (g.rememberAll ys).Tracks (operations.filterMap Operation.assigned?) st st₂ :=
      ((Tracks.of_fresh hfresh hdata hreport).of_besides hbesides).blocks hdistinct blocks hread
        (fun item active a hx => hactive item (hswitched item active a hx)) hchanged
    have htallies : (g.rememberAll ys).Tallies st₂ :=
      (Tallies.of_fresh hfresh st₁).rememberAll hchanged fun x hx => (blocks.keeps x hx).1
    apply restores.names hrestored htallies (htracks.restores restores hrestored)
    · exact fun item hitem => Operation.mem_assigned.mp (htracks.among item hitem)
    · intro item hitem
      rw [hfresh.deactivated_rememberAll blocks, List.mem_eraseDups] at hitem
      obtain ⟨a, hx⟩ := mem_deactivated hitem
      exact hswitched item false a hx

end Guard

/-- Whatever is done under a guard, in any order and however often, and whatever fails of it: after the
restore each part that is not the way it was when the guard was started is named by a message of the
report. No two handles that are given test sets may be of one item. -/
theorem restore_names_all (env : Environment σ) (view : σ → Contents) (hfaithful : Faithful env view)
    (project : Project) (configuration : Configuration) (operations : List Operation) (w : World σ)
    (hactive : ∀ item, .deactivate item ∈ operations → (view w.outside).active item.id = true)
    (hsame : ∀ i t j t', .assign i t ∈ operations → .assign j t' ∈ operations → i.id = j.id → i = j) :
    ∃ r w', (rehearse project configuration operations).run env w = (some r, w') ∧
      match r with
      | .error _ => (view w.outside).Same (view w'.outside)
      | .ok failures =>
        (view w.outside).Named operations (failures.map (·.message)) (view w'.outside) := by
  have hreturns : Returns env w (rehearse project configuration operations) fun t r =>
    Rehearsed project configuration operations t.exchanges r := returns_rehearse _ _ _
  obtain ⟨t, r, w', hrun, hl, -, hrehearsed⟩ := hreturns
  exact ⟨r, w', hrun, hrehearsed.names hactive hsame (hfaithful.passes_of_leads hl)⟩

/-- Handles of the small rig's test sets. -/
def Rig.handle (id : String) : TestSet := ⟨⟨id⟩, ⟨"Assigned", by decide +kernel⟩⟩

/-- An item that is assigned twice, another one that is switched off, a directory and a test set more. -/
def Guard.Operation.several : List Operation :=
  [.redirect (some ⟨"/slave/data"⟩) none, .assign ⟨⟨"i1"⟩, 0⟩ (Rig.handle "t1"), .deactivate ⟨⟨"i2"⟩, 1⟩,
    .createTemporary ⟨"Temporary", by decide +kernel⟩ [], .assign ⟨⟨"i1"⟩, 0⟩ (Rig.handle "t2")]

/-- On the small rig the replies to two changes are lost, and two steps of the restore are refused. -/
theorem several_named :
    let rig := Rig.small ([none, none, some .lost, none, none, some .lost] ++ List.replicate 3 none ++
      [some .refused, none, none, some .refused])
    (∀ item, .deactivate item ∈ Operation.several → rig.contents.active item.id = true) ∧
      (∀ i t j t', .assign i t ∈ Operation.several → .assign j t' ∈ Operation.several →
        i.id = j.id → i = j) ∧
      ∃ r w', (rehearse ⟨⟨"p"⟩, ⟨"/work/shop"⟩⟩ ⟨⟨"c"⟩, .nightly⟩ Operation.several).run Rig.environment
          { outside := rig } = (some r, w') ∧
        match r with
        | .error _ => rig.contents.Same w'.outside.contents
        | .ok failures => rig.contents.Named Operation.several (failures.map (·.message))
          w'.outside.contents := by
  intro rig
  have hactive : ∀ item, .deactivate item ∈ Operation.several → rig.contents.active item.id = true := by
    intro item hitem
    have hwhich : item = ⟨⟨"i2"⟩, 1⟩ := by simpa [Operation.several] using hitem
    rw [hwhich]
    decide
  have hsame : ∀ i t j t', .assign i t ∈ Operation.several → .assign j t' ∈ Operation.several →
      i.id = j.id → i = j := by
    have hwhich (i : Item) (t : TestSet) (h : .assign i t ∈ Operation.several) : i = ⟨⟨"i1"⟩, 0⟩ := by
      simp only [Operation.several, List.mem_cons, reduceCtorEq, Operation.assign.injEq, false_or,
        List.not_mem_nil, or_false] at h
      rcases h with h | h <;> exact h.1
    intro i t j t' hi hj _
    rw [hwhich i t hi, hwhich j t' hj]
  exact ⟨hactive, hsame, restore_names_all Rig.environment Rig.contents Rig.faithful _ _
    Operation.several { outside := rig } hactive hsame⟩

/-- A rig whose configuration lists one item twice. -/
def Rig.doubled : Rig :=
  let rig := Rig.small []
  { rig with
    contents := { rig.contents with items := fun _ => [⟨⟨"i1"⟩, 0⟩, ⟨⟨"i1"⟩, 1⟩] }
    complete := rig.complete }

/-- An item that is given test sets under two handles is left with another one than it held, and no message
names it. What an item held is to be read once, before it is first given another test set; but the second
handle is taken for another item's, and what is read and given back under it is what the first was given. -/
theorem doubled_unnamed :
    let operations : List Operation :=
      [.assign ⟨⟨"i1"⟩, 0⟩ (Rig.handle "t2"), .assign ⟨⟨"i1"⟩, 1⟩ (Rig.handle "t1")]
    Faithful Rig.environment Rig.contents ∧
      ∃ w', (rehearse ⟨⟨"p"⟩, ⟨"/work/shop"⟩⟩ ⟨⟨"c"⟩, .nightly⟩ operations).run Rig.environment
          { outside := Rig.doubled } = (some (.ok []), w') ∧
        (Rig.doubled.contents.reported ⟨"i1"⟩).map (·.id) = some ⟨"t1"⟩ ∧
        (w'.outside.contents.reported ⟨"i1"⟩).map (·.id) = some ⟨"t2"⟩ ∧
        ¬ Rig.doubled.contents.Named operations [] w'.outside.contents := by
  intro operations
  refine ⟨Rig.faithful, ?_⟩
  generalize hrun : (rehearse ⟨⟨"p"⟩, ⟨"/work/shop"⟩⟩ ⟨⟨"c"⟩, .nightly⟩ operations).run Rig.environment
    { outside := Rig.doubled } = result
  have hresult : result.1 = some (.ok []) := by
    rw [← hrun]
    decide +kernel
  have hafter : (result.2.outside.contents.reported ⟨"i1"⟩).map (·.id) = some ⟨"t2"⟩ := by
    rw [← hrun]
    decide +kernel
  have hbefore : (Rig.doubled.contents.reported ⟨"i1"⟩).map (·.id) = some ⟨"t1"⟩ := by decide +kernel
  refine ⟨result.2, Prod.ext hresult rfl, hbefore, hafter, fun hnamed => ?_⟩
  have hchanged : result.2.outside.contents.reported ⟨"i1"⟩ ≠ Rig.doubled.contents.reported ⟨"i1"⟩ := by
    intro hsame
    rw [hsame, hbefore] at hafter
    exact absurd hafter (by decide)
  obtain ⟨item, testSet, -, -, hmention | hmention | hmention⟩ := hnamed.testSet ⟨"i1"⟩ hchanged
  all_goals
    obtain ⟨cause, hcause⟩ := hmention
    cases hcause

end GuardedRun
