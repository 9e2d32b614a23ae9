import GuardedRun.Proofs.Blame
import GuardedRun.Proofs.RestoreReport
import GuardedRun.Proofs.Vocabulary

/-! Items that are left with a test set which is gone. A restore deletes what was made whether or not the
items could be given their own test sets back; which of them hold a deleted one it knows from reading them
back, and it reads back only where the order to hold none was taken. -/

namespace GuardedRun

open Session Guard Contents

variable {σ : Type} {env : Environment σ} {w : World σ}

/-- The item whose test set a call reads or sets. -/
def Call.holding? : Call → Option Item
  | itemTestSet item | setItemTestSet item _ => some item
  | _ => none

/-- The last call about the test set of an item succeeded. -/
def Exchange.LastSucceeds (item : Item) (xs : List Exchange) : Prop :=
  ∃ x ∈ (xs.filter (·.call.holding? = some item)).getLast?, x.succeeded

/-- The calls that are not about the item make no difference, and of those that are only the last does. -/
theorem Exchange.lastSucceeds_iff {item : Item} (before : List Exchange) {xs after : List Exchange}
    (hsome : xs ≠ []) (hxs : ∀ x ∈ xs, x.call.holding? = some item)
    (hafter : ∀ x ∈ after, x.call.holding? ≠ some item) :
    LastSucceeds item (before ++ (xs ++ after)) ↔ ∃ x ∈ xs.getLast?, x.succeeded := by
  have hall : xs.filter (·.call.holding? = some item) = xs :=
    List.filter_eq_self.mpr fun x hx => decide_eq_true (hxs x hx)
  have hnone : after.filter (·.call.holding? = some item) = [] :=
    List.filter_eq_nil_iff.mpr fun x hx => by simpa using hafter x hx
  have hlast : xs.getLast? = some (xs.getLast hsome) := List.getLast?_eq_some_getLast hsome
  rw [LastSucceeds, List.filter_append, List.filter_append, hall, hnone, List.append_nil,
    List.getLast?_append, hlast, Option.some_or]

section Contents

variable {st st' : Contents} {x : Exchange} {xs : List Exchange}

/-- A call that is not about the test set of an item leaves it alone. -/
theorem Exchange.Serves.held_eq (h : x.Serves st st') {id : ObjectId}
    (hx : ∀ item, x.call.holding? = some item → item.id ≠ id) : st'.held id = st.held id := by
  obtain ⟨call, a⟩ := x
  rcases h.effect with rfl | ⟨reply, htakes⟩
  · rfl
  · cases call with
    | setItemTestSet item testSet =>
      rcases htakes with rfl | ⟨-, rfl⟩
      · exact put_other _ _ (hx item rfl).symm
      · rfl
    | createTestSet project name =>
      obtain ⟨-, -, before, after, -, rfl⟩ := htakes
      rfl
    | openProject path =>
      obtain ⟨-, rfl⟩ := htakes
      rfl
    | addScenarios testSet scenarios =>
      obtain ⟨added, -, rfl⟩ := htakes
      rfl
    | closeProject | deleteTestSet | setDataDir | setReportDir | setItemActive =>
      obtain rfl := htakes
      rfl
    | _ =>
      obtain ⟨-, rfl⟩ := htakes
      rfl

theorem Evolves.held_eq (h : Evolves st xs st') {id : ObjectId}
    (hxs : ∀ x ∈ xs, ∀ item, x.call.holding? = some item → item.id ≠ id) :
    st'.held id = st.held id := by
  induction h with
  | nil st => rfl
  | @cons st st₁ st' x xs first rest ih =>
    have hlater : st'.held id = st₁.held id := ih fun y hy => hxs y (List.mem_cons_of_mem _ hy)
    rw [hlater, first.held_eq (hxs x List.mem_cons_self)]

/-- Calls about the test sets of items neither make nor delete any. -/
theorem Evolves.sets_of_holding (h : Evolves st xs st')
    (hxs : ∀ x ∈ xs, ∃ item, x.call.holding? = some item) :
    st'.testSets.map (·.testSet) = st.testSets.map (·.testSet) := by
  have hcall {c : Call} {item : Item} (hc : c.holding? = some item) :
      c.isCreation = false ∧ c.deleted? = none := by
    cases c <;> first | exact ⟨rfl, rfl⟩ | cases hc
  induction h with
  | nil st => rfl
  | @cons st st₁ st' x xs first rest ih =>
    obtain ⟨item, hitem⟩ := hxs x List.mem_cons_self
    have hlater : st'.testSets.map (·.testSet) = st₁.testSets.map (·.testSet) :=
      ih fun y hy => hxs y (List.mem_cons_of_mem _ hy)
    rw [hlater, first.sets_eq (hcall hitem).1 (hcall hitem).2]

/-- An item that refers to a test set which is there is reported to hold one of its id. -/
theorem Contents.reported_of_present {item : ObjectId} {testSet : TestSet}
    (hheld : st.held item = some testSet.id) (hpresent : testSet ∈ st.testSets.map (·.testSet)) :
    ∃ t, st.reported item = some t ∧ t.id = testSet.id := by
  obtain ⟨kept, hkept, hsame⟩ := List.mem_map.mp hpresent
  have hfound : (st.set? testSet.id).isSome = true := by
    rw [set?, List.find?_isSome]
    exact ⟨kept, hkept, decide_eq_true (congrArg TestSet.id hsame)⟩
  obtain ⟨first, hfirst⟩ := Option.isSome_iff_exists.mp hfound
  refine ⟨first.testSet, ?_, set?_id hfirst⟩
  rw [reported, heldSet, hheld, Option.bind_some, hfirst, Option.map_some]

end Contents

namespace Guard

variable {g : Guard} {xs before ys after : List Exchange} {failures : List RestoreFailure} {item : Item}
  {former still : Option TestSet} {held : List (Item × TestSet)}

theorem Returned.holding (h : Returned item former xs failures still) :
    xs ≠ [] ∧ ∀ x ∈ xs, x.call.holding? = some item := by
  cases h <;> simp [Call.holding?]

/-- What is found held was read back, and by the last call. -/
theorem Returned.succeeds (h : Returned item former xs failures still) {t : TestSet}
    (hread : ⟨.itemTestSet item, .ok (some t)⟩ ∈ xs) : ∃ x ∈ xs.getLast?, x.succeeded := by
  cases h with
  | refused former e => simp at hread
  | unverified e => simp at hread
  | given | cleared | held => exact ⟨_, rfl, rfl⟩

/-- Where an item still refers to a test set that it is not to have, the last call about it failed, or has
found that out. -/
theorem Returned.finds (h : Returned item former xs failures still) {st st' : Contents}
    (hev : Evolves st xs st') {testSet : TestSet} (hheld : st'.held item.id = some testSet.id)
    (hformer : ∀ t, former = some t → t.id ≠ testSet.id)
    (hpresent : testSet ∈ st.testSets.map (·.testSet)) (hlast : ∃ x ∈ xs.getLast?, x.succeeded) :
    ∃ t, ⟨.itemTestSet item, .ok (some t)⟩ ∈ xs ∧ t.id = testSet.id := by
  -- an item is read back while the test set is still there
  have hsets : st'.testSets.map (·.testSet) = st.testSets.map (·.testSet) :=
    hev.sets_of_holding fun x hx => ⟨item, h.holding.2 x hx⟩
  have hread (r : Option TestSet) (hev : Evolves st [⟨.setItemTestSet item none, .ok ()⟩,
      ⟨.itemTestSet item, .ok r⟩] st') : ∃ t, r = some t ∧ t.id = testSet.id := by
    obtain ⟨st₁, -, hverify⟩ := passes_cons.mp hev
    obtain ⟨hreply, rfl⟩ : r = st₁.reported item.id ∧ st' = st₁ := passes_singleton.mp hverify
    rw [hreply]
    exact reported_of_present hheld (hsets ▸ hpresent)
  have hfailed {call : Call} {e : EngineError}
      (h : ∃ x ∈ some (⟨call, .error e⟩ : Exchange), x.succeeded) : False := by
    obtain ⟨x, hx, hsucceeded⟩ := h
    cases hx
    cases hsucceeded
  cases h with
  | refused former e => exact absurd hlast hfailed
  | given t =>
    -- the item refers to its own test set again, which is another one
    have hback : st'.held item.id = some t.id := by
      rcases (passes_singleton.mp hev).took with rfl | ⟨hnone, -⟩
      · exact put_same _ _ _
      · cases hnone
    have hid : t.id = testSet.id := Option.some.inj (hback.symm.trans hheld)
    exact absurd hid (hformer t rfl)
  | cleared =>
    obtain ⟨t, hnone, -⟩ := hread none hev
    cases hnone
  | held t =>
    obtain ⟨t', hsome, hid⟩ := hread (some t) hev
    cases hsome
    exact ⟨t, by simp, hid⟩
  | unverified e => exact absurd hlast hfailed

theorem ReturnedAll.holding {entries : List (Item × Option TestSet)}
    (h : ReturnedAll entries xs failures held) :
    ∀ x ∈ xs, ∃ item ∈ entries.map (·.1), x.call.holding? = some item := by
  induction h with
  | nil => exact nofun
  | @cons item former rest ys zs failures others still held first next ih =>
    refine List.forall_mem_append.mpr ⟨fun x hx => ?_, fun x hx => ?_⟩
    · exact ⟨item, List.mem_cons_self, first.holding.2 x hx⟩
    · obtain ⟨other, hother, hholding⟩ := ih x hx
      exact ⟨other, List.mem_cons_of_mem _ hother, hholding⟩

/-- The calls about an item stand together: before them there are calls about other items, and after
them none about it. -/
structure Share (item : Item) (xs before ys after : List Exchange) : Prop where
  parts : xs = before ++ (ys ++ after)
  before_others : ∀ x ∈ before, ∃ other, other ≠ item ∧ x.call.holding? = some other
  after_others : ∀ x ∈ after, x.call.holding? ≠ some item

namespace Share

theorem extend (h : Share item xs before ys after) {zs : List Exchange}
    (hzs : ∀ x ∈ zs, x.call.holding? ≠ some item) : Share item (xs ++ zs) before ys (after ++ zs) where
  parts := by
    rw [h.parts]
    simp only [List.append_assoc]
  before_others := h.before_others
  after_others := List.forall_mem_append.mpr ⟨h.after_others, hzs⟩

theorem mem (h : Share item xs before ys after) {x : Exchange} (hx : x ∈ xs)
    (hitem : x.call.holding? = some item) : x ∈ ys := by
  rw [h.parts] at hx
  rcases List.mem_append.mp hx with hx | hx
  · obtain ⟨other, hdiffers, hother⟩ := h.before_others x hx
    rw [hother] at hitem
    exact absurd (Option.some.inj hitem) hdiffers
  · rcases List.mem_append.mp hx with hx | hx
    · exact hx
    · exact absurd hitem (h.after_others x hx)

theorem subset (h : Share item xs before ys after) : ys ⊆ xs := by
  rw [h.parts]
  exact List.subset_append_of_subset_right _ (List.subset_append_left _ _)

/-- What was called earlier makes no difference to what the last call about the item was. -/
theorem last (h : Share item xs before ys after) {failures' : List RestoreFailure}
    (hreturned : Returned item former ys failures' still) (earlier : List Exchange) :
    Exchange.LastSucceeds item (earlier ++ xs) ↔ ∃ x ∈ ys.getLast?, x.succeeded := by
  rw [h.parts, ← List.append_assoc]
  exact Exchange.lastSucceeds_iff (earlier ++ before) hreturned.holding.1 hreturned.holding.2
    h.after_others

end Share

/-- Where every item is given its test set back once, each has its share of the calls. -/
theorem ReturnedAll.share {entries : List (Item × Option TestSet)}
    (h : ReturnedAll entries xs failures held) (hnodup : (entries.map (·.1)).Nodup)
    (hmem : (item, former) ∈ entries) : ∃ before ys after failures' still,
      Returned item former ys failures' still ∧ Share item xs before ys after := by
  induction h with
  | nil => cases hmem
  | @cons item₁ former₁ rest ys zs failures others still held first next ih =>
    obtain ⟨hfresh, hrest⟩ := List.nodup_cons.mp hnodup
    rcases List.mem_cons.mp hmem with heq | hlater
    · cases heq
      refine ⟨[], ys, zs, failures, still, first, rfl, nofun, fun x hx hitem => ?_⟩
      obtain ⟨other, hother, hholding⟩ := next.holding x hx
      rw [hholding] at hitem
      exact hfresh (Option.some.inj hitem ▸ hother)
    · have hne : item₁ ≠ item := by
        rintro rfl
        exact hfresh (List.mem_map.mpr ⟨_, hlater, rfl⟩)
      obtain ⟨before, ys', after, failures', still', hreturned, hshare⟩ := ih hrest hlater
      refine ⟨ys ++ before, ys', after, failures', still', hreturned, ?_, ?_, hshare.after_others⟩
      · rw [hshare.parts, List.append_assoc]
      · exact List.forall_mem_append.mpr
          ⟨fun x hx => ⟨item₁, hne, first.holding.2 x hx⟩, hshare.before_others⟩

theorem Tried.calls {ι : Type} {call : ι → Call}
    {report : (i : ι) → Except EngineError (call i).Reply → List RestoreFailure} {is : List ι}
    (h : Tried call report is xs failures) : xs.map (·.call) = is.map call := by
  induction h with
  | nil => rfl
  | cons i a next ih => rw [List.map_cons, List.map_cons, ih]

/-- What an item held at the start is no test set that was made. -/
theorem Tracks.former_unmade {targets : List Item} {st₀ st : Contents} (h : g.Tracks targets st₀ st)
    {t : TestSet} (hmem : (item, some t) ∈ g.formerTestSets) : t.id ∉ g.madeIds := by
  obtain ⟨kept, hkept, -⟩ := set?_of_reported (h.former item (some t) hmem).symm
  have hthere : kept ∈ st.testSets.filter fun s => s.testSet.id ∉ g.madeIds := by
    rw [h.kept]
    exact List.mem_of_find?_eq_some hkept
  have hunmade : kept.testSet.id ∉ g.madeIds := by simpa using (List.mem_filter.mp hthere).2
  rwa [set?_id hkept] at hunmade

/-- A restore reads and sets the test sets of the items that are remembered, all before it does anything
else; so each of these items has its share of the calls. -/
theorem Restores.share (h : g.Restores xs failures) :
    (∀ x ∈ xs, ∀ item, x.call.holding? = some item → item ∈ g.reassigned) ∧
      ∀ item former, g.reassigned.Nodup → (item, former) ∈ g.formerTestSets →
        ∃ before ys after failures' still, Returned item former ys failures' still ∧
          Share item xs before ys after := by
  cases h with
  | @all xs₁ xs₂ xs₃ xs₄ _ _ _ _ held testSets directories deletions activations =>
    have htried {ι : Type} {call : ι → Call} {is : List ι} {ys : List Exchange}
        (hcalls : ys.map (·.call) = is.map call) (hcall : ∀ i, (call i).holding? = none) :
        ∀ x ∈ ys, x.call.holding? = none := by
      intro x hx
      have hmem : x.call ∈ is.map call := hcalls ▸ List.mem_map_of_mem hx
      obtain ⟨i, -, hi⟩ := List.mem_map.mp hmem
      rw [← hi, hcall]
    have hrest : ∀ x ∈ xs₂ ++ (xs₃ ++ xs₄), x.call.holding? = none := by
      refine List.forall_mem_append.mpr ⟨?_, List.forall_mem_append.mpr ⟨?_, ?_⟩⟩
      · cases directories <;> simp [Call.holding?]
      · exact htried deletions.calls fun _ => rfl
      · exact htried activations.calls fun _ => rfl
    rw [List.append_assoc, List.append_assoc]
    constructor
    · refine List.forall_mem_append.mpr ⟨fun x hx item hitem => ?_, fun x hx item hitem => ?_⟩
      · obtain ⟨other, hother, hholding⟩ := testSets.holding x hx
        rw [hholding] at hitem
        exact Option.some.inj hitem ▸ hother
      · rw [hrest x hx] at hitem
        cases hitem
    · intro item former hnodup hmem
      obtain ⟨before, ys, after, failures', still, hreturned, hshare⟩ := testSets.share hnodup hmem
      refine ⟨before, ys, _, failures', still, hreturned, hshare.extend fun x hx => ?_⟩
      rw [hrest x hx]
      exact nofun

/-- That an item is left with a deleted test set is reported where it was read back as holding one of the
same id. -/
theorem Restores.dangling_iff (h : g.Restores xs failures) {testSet : TestSet} :
    .dangling item testSet ∈ failures ↔
      (∃ project, ⟨.deleteTestSet project testSet, .ok ()⟩ ∈ xs) ∧
        ∃ t, ⟨.itemTestSet item, .ok (some t)⟩ ∈ xs ∧ t.id = testSet.id := by
  rw [h.accounts.report, List.mem_flatMap]
  constructor
  · rintro ⟨x, hx, hfault⟩
    obtain ⟨project, rfl, t, ht, hid⟩ := Exchange.dangling_mem_faults.mp hfault
    exact ⟨⟨project, hx⟩, t, Exchange.mem_stillHeld.mp ht, hid⟩
  · rintro ⟨⟨project, hx⟩, t, ht, hid⟩
    exact ⟨_, hx, Exchange.dangling_mem_faults.mpr ⟨project, rfl, t, Exchange.mem_stillHeld.mpr ht, hid⟩⟩

section Announced

variable {targets : List Item} {st₀ st st' : Contents} {testSet : TestSet}

/-- An item that refers to a test set which was made is one that the guard remembers. -/
theorem Restores.holder (h : g.Restores xs failures) (htracks : g.Tracks targets st₀ st)
    (hev : Evolves st xs st') {id : ObjectId} (hheld : st'.held id = some testSet.id)
    (hmade : testSet.id ∈ g.madeIds) : ∃ item ∈ g.reassigned, item.id = id := by
  by_contra hnone
  have hnot : ∀ item ∈ g.reassigned, item.id ≠ id := fun item hitem hid => hnone ⟨item, hitem, hid⟩
  have hsame : st'.held id = st.held id :=
    hev.held_eq fun x hx item hitem => hnot item (h.share.1 x hx item hitem)
  exact (htracks.held id hnot).2 testSet.id hmade (hsame ▸ hheld)

/-- An item that still refers to a test set which the guard had made was read back as holding it, if the
last call about the item succeeded. -/
theorem Share.finds (h : Share item xs before ys after) {failures' : List RestoreFailure}
    (hreturned : Returned item former ys failures' still) (htracks : g.Tracks targets st₀ st)
    (htallies : g.Tallies st)
    (hids : ∀ x ∈ xs, ∀ other, x.call.holding? = some other → other.id = item.id → other = item)
    (hmem : (item, former) ∈ g.formerTestSets) (hev : Evolves st xs st')
    (hheld : st'.held item.id = some testSet.id) (hmade : testSet ∈ g.temporary)
    (hlast : ∃ x ∈ ys.getLast?, x.succeeded) :
    ∃ t, ⟨.itemTestSet item, .ok (some t)⟩ ∈ ys ∧ t.id = testSet.id := by
  rw [h.parts] at hev hids
  obtain ⟨st₁, hbefore, hparts⟩ := passes_append.mp hev
  obtain ⟨st₂, hreturn, hafter⟩ := passes_append.mp hparts
  -- what comes later is about other items, which have other ids
  have hsame : st'.held item.id = st₂.held item.id := by
    apply Evolves.held_eq hafter
    intro x hx other hother hid
    have hitem : other = item :=
      hids x (List.mem_append_right _ (List.mem_append_right _ hx)) other hother hid
    exact h.after_others x hx (hitem ▸ hother)
  have hpresent : testSet ∈ st₁.testSets.map (·.testSet) := by
    have hsets : st₁.testSets.map (·.testSet) = st.testSets.map (·.testSet) :=
      Evolves.sets_of_holding hbefore fun x hx => (h.before_others x hx).imp fun _ hc => hc.2
    rw [hsets]
    exact htallies.present testSet hmade
  have hformer : ∀ t, former = some t → t.id ≠ testSet.id := by
    rintro t rfl hid
    apply htracks.former_unmade hmem
    rw [hid]
    exact List.mem_map_of_mem hmade
  exact hreturned.finds hreturn (hsame ▸ hheld) hformer hpresent hlast

/-- A restore tells of the items that are left with what it deleted, of each as its own calls went. -/
theorem Restores.announces (h : g.Restores xs failures) (htracks : g.Tracks targets st₀ st)
    (htallies : g.Tallies st) (hnodup : g.reassigned.Nodup)
    (hids : ∀ i ∈ g.reassigned, ∀ j ∈ g.reassigned, i.id = j.id → i = j) (hev : Evolves st xs st')
    {id : ObjectId} {project : Project} (hheld : st'.held id = some testSet.id)
    (hdeleted : ⟨.deleteTestSet project testSet, .ok ()⟩ ∈ xs) (earlier : List Exchange) :
    ∃ item ∈ g.reassigned, item.id = id ∧
      (Exchange.LastSucceeds item (earlier ++ xs) → .dangling item testSet ∈ failures) ∧
        ∀ set, .dangling item set ∈ failures → Exchange.LastSucceeds item (earlier ++ xs) := by
  have hmade : testSet ∈ g.temporary :=
    (h.comprises.undoes (List.Subset.refl _) _ hdeleted).handled rfl
  obtain ⟨hholding, hshares⟩ := h.share
  obtain ⟨item, hitem, rfl⟩ := h.holder htracks hev hheld (List.mem_map_of_mem hmade)
  obtain ⟨⟨_, former⟩, hformer, rfl⟩ := List.mem_map.mp hitem
  obtain ⟨before, ys, after, failures', still, hreturned, hshare⟩ := hshares _ former hnodup hformer
  refine ⟨_, hitem, rfl, fun hlast => ?_, fun set hdangling => ?_⟩
  · obtain ⟨t, hread, hid⟩ := hshare.finds hreturned htracks htallies
      (fun x hx other hother hid => hids other (hholding x hx other hother) _ hitem hid) hformer hev hheld
      hmade ((hshare.last hreturned earlier).mp hlast)
    exact h.dangling_iff.mpr ⟨⟨project, hdeleted⟩, t, hshare.subset hread, hid⟩
  · obtain ⟨-, t, hread, -⟩ := h.dangling_iff.mp hdangling
    exact (hshare.last hreturned earlier).mpr (hreturned.succeeds (hshare.mem hread rfl))

end Announced

end Guard

/-- An item is told by its number, which ends where the digits do. -/
theorem Item.position_eq {i j : Item} {a b : List Char}
    (h : i.describe.toList ++ ' ' :: a = j.describe.toList ++ ' ' :: b) : i.position = j.position := by
  have hdigits (n : Nat) (rest : List Char) :
      (n.repr.toList ++ ' ' :: rest).takeWhile Char.isDigit = n.repr.toList := by
    have hall : ∀ c ∈ n.repr.toList, c.isDigit = true := by
      intro c hc
      rw [Nat.toList_repr] at hc
      exact Nat.isDigit_of_mem_toDigits (by omega) (by omega) hc
    have hspace : ¬ ' '.isDigit = true := by decide
    rw [List.takeWhile_append_of_pos hall, List.takeWhile_cons_of_neg hspace, List.append_nil]
  have hdescribe (k : Item) : k.describe.toList = "item #".toList ++ (k.position + 1).repr.toList :=
    String.toList_append
  rw [hdescribe, hdescribe, List.append_assoc, List.append_assoc] at h
  have hrest := List.append_cancel_left h
  have hnumber : (i.position + 1).repr.toList = (j.position + 1).repr.toList := by
    rw [← hdigits (i.position + 1) a, hrest, hdigits]
  have hread (n : Nat) : Nat.ofDigitChars 10 n.repr.toList 0 = n := by
    rw [Nat.toList_repr]
    exact Nat.ofDigitChars_ten_toDigits
  have hsame : i.position + 1 = j.position + 1 := by
    rw [← hread (i.position + 1), hnumber, hread]
  omega

namespace RestoreFailure

theorem toList_dangling (item : Item) (set : TestSet) : ∃ rest,
    (dangling item set).line.message.toList = item.describe.toList ++ ' ' :: rest := by
  have hmessage : (dangling item set).message = item.describe ++
      (" still references deleted temporary test set `" ++ (set.name.text ++ "`; reassign it by hand")) := by
    change item.describe ++ " still references deleted temporary test set `" ++ set.name.text ++
      "`; reassign it by hand" = _
    simp only [String.append_assoc]
  refine ⟨"still references deleted temporary test set `".toList ++
    (set.name.text ++ "`; reassign it by hand").toList, ?_⟩
  change (dangling item set).message.toList = _
  rw [hmessage, String.toList_append, String.toList_append]
  rfl

/-- A line that tells of an item left with a deleted test set tells of no other item. -/
theorem dangling_of_line {f : RestoreFailure} {item : Item} {set : TestSet}
    (h : f.line = (dangling item set).line) :
    ∃ item' set', f = dangling item' set' ∧ item'.position = item.position := by
  cases f with
  | dangling item' set' =>
    refine ⟨item', set', rfl, ?_⟩
    obtain ⟨rest, hrest⟩ := toList_dangling item set
    obtain ⟨rest', hrest'⟩ := toList_dangling item' set'
    rw [h, hrest] at hrest'
    exact (Item.position_eq hrest').symm
  | _ =>
    have hevent := congrArg LogLine.event h
    simp [line] at hevent

end RestoreFailure

namespace Guard

theorem returns_announced (failures : List RestoreFailure) :
    Returns env w (announceIncomplete failures) fun t _ => ∀ line ∈ t.errors, line = incomplete failures := by
  unfold announceIncomplete
  cases failures with
  | nil => exact .pure nofun
  | cons failure rest => exact .note fun line hline => List.mem_singleton.mp hline

/-- The errors that a restore notes are its failures, and that it was not complete. -/
theorem returns_restoration_errors (g : Guard) :
    Returns env w (do
      let failures ← g.restore
      announceIncomplete failures
      return failures) fun t failures =>
        ∀ line ∈ t.errors, line = incomplete failures ∨ line ∈ failures.map RestoreFailure.line := by
  apply Returns.bind (returns_restore g)
  intro t failures w₁ _ hrestored
  apply Returns.bind (returns_announced failures)
  intro t' u w₂ _ hannounced
  apply Returns.pure
  rw [Trace.append_nil, Trace.errors_append]
  refine List.forall_mem_append.mpr ⟨fun line hline => .inr ?_, fun line hline => .inl ?_⟩
  · rwa [hrestored.2] at hline
  · exact hannounced line hline

/-- After any changes under a guard, and the work, what was made is there. -/
theorem Tallies.of_region {ctx : Orchestration} {task : Task} {g g' : Guard} {s : σ} {flag : Bool}
    {t : Trace} {r : Except OrchestrationError Unit} {st st' : Contents} (hg : g.Fresh)
    (h : Task.Region env ctx task g s flag t (some (r, g'))) (hev : Evolves st t.exchanges st') :
    g'.Tallies st' ∧ g'.reassigned.Nodup ∧ ∀ x ∈ t.exchanges, x.call.deleted? = none := by
  obtain ⟨redirection, alteration, _, labour, hparts, altering, works, hguard⟩ := h.altered
  have hblocks := altering.carries.blocks
  have hkept : ∀ x ∈ (redirection ++ alteration).exchanges, x.call.deleted? = none :=
    fun x hx => (hblocks.keeps x hx).1
  have hworked : ∀ x ∈ labour, x.call.deleted? = none :=
    fun x hx => (Call.plain_of_isWork (works.isWork x hx)).2.2.1
  rw [hparts] at hev ⊢
  obtain ⟨st₁, hchanged, hlaboured⟩ := passes_append.mp hev
  rw [hguard r g' rfl, Evolves.of_isWork hlaboured works.isWork]
  refine ⟨(Tallies.of_fresh hg st).rememberAll hchanged hkept, ?_, List.forall_mem_append.mpr
    ⟨hkept, hworked⟩⟩
  rw [hg.reassigned_rememberAll hblocks]
  exact nodup_eraseDups _

end Guard

/-- The items of a configuration are told apart by their positions. -/
def Contents.Numbered (st : Contents) : Prop :=
  ∀ configuration, (st.items configuration).Pairwise fun i j => i.position ≠ j.position

/-- Of the items that refer to a test set which was deleted, those are announced that the last call about
succeeded. -/
def Request.Announces (request : Request) (st st' : Contents) (xs : List Exchange)
    (lines : List LogLine) : Prop :=
  ∀ id project testSet, st'.held id = some testSet.id → ⟨.deleteTestSet project testSet, .ok ()⟩ ∈ xs →
    ∃ c item, request.Finds xs c ∧ item ∈ st.items c.id ∧ item.id = id ∧
      ((RestoreFailure.dangling item testSet).line ∈ lines ↔ Exchange.LastSucceeds item xs)

/-- That an item is left with a deleted test set is noted by the restore alone, as one of its failures. -/
theorem RestoreFailure.dangling_noted {planning work restoration : Trace}
    {failures : List RestoreFailure}
    (hplanning : ∀ line ∈ planning.lines, line.event ∈ Vocabulary.planning)
    (hwork : ∀ line ∈ work.lines, line.event ∈ Vocabulary.changes ++ Vocabulary.work)
    (herrors : ∀ line ∈ restoration.errors, line = incomplete failures ∨
      line ∈ failures.map RestoreFailure.line)
    (request : Request) (r : Except OrchestrationError Outcome) {item : Item} {testSet : TestSet}
    (h : (RestoreFailure.dangling item testSet).line ∈
      (planning ++ (work ++ (restoration ++ .noted (request.closing r)))).lines) :
    ∃ item' set, .dangling item' set ∈ failures ∧ item'.position = item.position := by
  have hevent : (RestoreFailure.dangling item testSet).line.event = "restore.dangling_test_set" := rfl
  simp only [Trace.lines_append, Trace.lines_noted, List.mem_append, List.mem_singleton] at h
  rcases h with h | h | h | h
  · have hmem := hplanning _ h
    rw [hevent] at hmem
    exact absurd hmem (by decide)
  · have hmem := hwork _ h
    rw [hevent] at hmem
    exact absurd hmem (by decide)
  · have herror : (RestoreFailure.dangling item testSet).line ∈ restoration.errors :=
      List.mem_filter.mpr ⟨h, rfl⟩
    rcases herrors _ herror with hincomplete | hfailure
    · exact absurd (hevent.symm.trans (congrArg LogLine.event hincomplete)) (of_decide_eq_true rfl)
    · obtain ⟨f, hf, hline⟩ := List.mem_map.mp hfailure
      obtain ⟨item', set, rfl, hposition⟩ := RestoreFailure.dangling_of_line hline
      exact ⟨item', set, hf, hposition⟩
  · have hmem := request.event_closing r
    rw [← h, hevent] at hmem
    exact absurd hmem (by decide)

/-- What a guard remembers when the restore begins: items that the configuration had, each once, and test
sets that are there. -/
theorem Task.Region.leaves {ctx : Orchestration} {request : Request} {task : Task} {g g' : Guard} {s : σ}
    {flag : Bool} {planning : List Exchange} {t : Trace} {r : Except OrchestrationError Unit}
    {st st₁ st₂ : Contents} (h : Task.Region env ctx task g s flag t (some (r, g')))
    (hprepared : request.Prepared ctx planning task g) (hagrees : st.Agrees planning)
    (hbesides : st.Besides st₁) (hdistinct : st.Distinct) (hev : Evolves st₁ t.exchanges st₂) :
    g'.Tracks task.items st st₂ ∧ g'.Tallies st₂ ∧ g'.reassigned.Nodup ∧
      (∀ item ∈ g'.reassigned, item ∈ st.items g.configuration.id) ∧
        ∀ x ∈ t.exchanges, x.call.deleted? = none := by
  obtain ⟨hbridged, hlisted⟩ := h.bridges hprepared hagrees hbesides hdistinct hev
  obtain ⟨htallies, hnodup, hdeleted⟩ := Tallies.of_region hprepared.facts.2.1 h hev
  exact ⟨hbridged, htallies, hnodup, fun item hitem => hlisted item (hbridged.among item hitem), hdeleted⟩

theorem Contents.Numbered.eq_of_position {st : Contents} (h : st.Numbered) {configuration : ObjectId}
    {i j : Item} (hi : i ∈ st.items configuration) (hj : j ∈ st.items configuration)
    (hposition : i.position = j.position) : i = j :=
  List.inj_on_of_nodup_map (List.pairwise_map.mpr (h configuration)) hi hj hposition

/-- Planning deletes nothing. -/
theorem Exchange.Plans.keeps {x : Exchange} (h : x.Plans) : x.call.deleted? = none := by
  obtain ⟨call, a⟩ := x
  rcases h with hread | ⟨path, hopen⟩
  · cases call <;> first | rfl | cases hread
  · obtain rfl : call = .openProject path := hopen
    rfl

theorem traces_announced (ctx : Orchestration) (request : Request) {st : Contents}
    (hdistinct : st.Distinct) (hnumbered : st.Numbered) :
    Traces env w (request.orchestrate ctx).run fun t o => o.isSome = true →
      ∀ st', Evolves st t.exchanges st' → request.Announces st st' t.exchanges t.lines := by
  refine traces_parts ((Attempt.notes_prepare ctx request).returns (request.returns_prepare ctx))
    (P := fun planning task g t o =>
      (∃ s flag, Task.Region env ctx task g s flag t o) ∧
        ∀ line ∈ t.lines, line.event ∈ Vocabulary.changes ++ Vocabulary.work)
    (fun planning task g w₁ _ _ => ?_)
    (fun g w₂ => (returns_restoration g).and (returns_restoration_errors g)) ?_ ?_ ?_
  · apply ((Task.notes_perform ctx task g).traces (Task.traces_perform ctx task)).mono
    intro t o h
    exact ⟨⟨_, _, h.1⟩, h.2⟩
  · intro planning e h _ st' hev id project testSet _ hdeleted
    obtain ⟨hpreparing, -⟩ := h
    cases (hpreparing.plans _ hdeleted).keeps
  · intro planning task g work _ _ hreturned
    cases hreturned
  · intro planning task g work result g' restoration failures h hwork hrestored concluded _ st' hev id
      project testSet hheld hdeleted
    obtain ⟨⟨hpreparing, hprepared⟩, hplanning⟩ := h
    obtain ⟨⟨s, flag, region⟩, hworkLines⟩ := hwork
    obtain ⟨hrestored, herrors⟩ := hrestored
    simp only [Trace.exchanges_append, Trace.exchanges_noted, List.append_nil] at hev hdeleted ⊢
    obtain ⟨st₁, hplanned, hev⟩ := passes_append.mp hev
    obtain ⟨st₂, hworked, hev⟩ := passes_append.mp hev
    obtain ⟨hbesides, hagrees⟩ := Evolves.of_plans hplanned hpreparing.plans
    obtain ⟨htracks, htallies, hnodup, hlisted, hkept⟩ :=
      region.leaves hprepared hagrees hbesides hdistinct hworked
    -- only the restore deletes
    have hlast : ⟨.deleteTestSet project testSet, .ok ()⟩ ∈ restoration.exchanges := by
      rcases List.mem_append.mp hdeleted with hx | hx
      · cases (hpreparing.plans _ hx).keeps
      · rcases List.mem_append.mp hx with hx | hx
        · cases hkept _ hx
        · exact hx
    have hids : ∀ i ∈ g'.reassigned, ∀ j ∈ g'.reassigned, i.id = j.id → i = j :=
      fun i hi j hj hid => hdistinct.eq_of_id (hlisted i hi) (hlisted j hj) hid
    obtain ⟨item, hitem, hid, hannounced, hsucceeded⟩ := hrestored.restores.announces htracks htallies
      hnodup hids hev hheld hlast (planning.exchanges ++ work.exchanges)
    rw [List.append_assoc] at hannounced hsucceeded
    refine ⟨g.configuration, item, hprepared.finds.mono (List.subset_append_left _ _), hlisted item hitem,
      hid, fun hline => ?_, fun hsucceeds => ?_⟩
    · obtain ⟨item', set, hfailure, hposition⟩ :=
        RestoreFailure.dangling_noted hplanning hworkLines herrors request concluded hline
      obtain ⟨hitem', -⟩ := (hrestored.restores.blames hfailure).1
      -- the positions tell the items apart
      have hsame : item' = item :=
        hnumbered.eq_of_position (hlisted item' hitem') (hlisted item hitem) hposition
      exact hsucceeded set (hsame ▸ hfailure)
    · have hnoted := hrestored.noted _ (hannounced hsucceeds)
      simp [hnoted]

/-- When a run of test cases returns, an item that refers to a test set which the run deleted is announced,
by its position and the name of the test set, just where the last call about the test set of that item
succeeded. So an item is left unannounced where it could not be given its own test set back, or could not be
read after it was to hold none. -/
theorem executeTestCases_announces_iff (env : Environment σ) (view : σ → Contents)
    (hfaithful : Faithful env view) (ctx : Orchestration) (request : ExecutionRequest) (w w' : World σ)
    (r : Except OrchestrationError Outcome) (hdistinct : (view w.outside).Distinct)
    (hnumbered : (view w.outside).Numbered)
    (hrun : Session.run (Attempt.executeTestCases ctx request).run env w = (some r, w')) :
    ∃ events lines, w'.events = w.events ++ events ∧ w'.log.lines = w.log.lines ++ lines ∧
      (Request.execution request).Announces (view w.outside) (view w'.outside)
        (events.filterMap Event.exchange?) lines := by
  have htraces : Traces env w ((Request.execution request).orchestrate ctx).run fun t o =>
      o.isSome = true → ∀ st', Evolves (view w.outside) t.exchanges st' →
        (Request.execution request).Announces (view w.outside) st' t.exchanges t.lines :=
    traces_announced ctx (.execution request) hdistinct hnumbered
  obtain ⟨t, hl, hannounced⟩ := htraces
  have hrun' : Session.run ((Request.execution request).orchestrate ctx).run env w = (some r, w') := hrun
  rw [hrun'] at hl hannounced
  have hev := hfaithful.passes_of_leads hl
  exact ⟨t.events, t.lines, hl.events, hl.lines, hannounced rfl _ hev⟩

theorem Rig.numbered_small (mishaps : List (Option Mishap)) : (Rig.small mishaps).contents.Numbered := by
  intro configuration
  change List.Pairwise _ [_, _, _]
  decide

/-- The answer of an engine that ignores that an item is to hold no test set. -/
def Rig.answerDeaf : (call : Call) → Rig → Except EngineError call.Reply × Rig
  | .setItemTestSet _ none, rig => (.ok (), rig.proceed)
  | call, rig => rig.answer call

def Rig.deaf : Environment Rig := { Rig.environment with answer := Rig.answerDeaf }

theorem Rig.faithful_deaf : Faithful Rig.deaf Rig.contents where
  answers call rig := by
    have hplain := Rig.faithful.answers call rig
    cases call with
    | setItemTestSet item testSet =>
      cases testSet with
      | none => exact .inr ⟨rfl, rfl⟩
      | some testSet => exact hplain
    | _ => exact hplain
  pauses _ _ := rfl
  launches _ _ _ := rfl

/-- The small rig, with items that hold no test sets. -/
def Rig.vacant : Rig :=
  let rig := Rig.small []
  { rig with
    contents := { rig.contents with held := fun _ => none }
    complete := nofun }

/-- A request for a test set that the items are to share, the first one of the rig. -/
def sessionRequest : ExecutionRequest :=
  { loginRequest with testSet := Rig.vacant.contents.testSets.head?.map (·.testSet.name) }

/-- On a rig that does not clear its items, both of them are left with the test set that they shared, and
both are announced. -/
theorem session_announced : Rig.vacant.contents.Distinct ∧ Rig.vacant.contents.Numbered ∧ ∃ r w',
    Session.run (Attempt.executeTestCases { rounds := 3 } sessionRequest).run Rig.deaf
      { outside := Rig.vacant } = (some r, w') ∧
    w'.outside.contents.held ⟨"i1"⟩ = some ⟨"m1"⟩ ∧ w'.outside.contents.held ⟨"i2"⟩ = some ⟨"m1"⟩ ∧
    ∃ events lines, w'.events = [] ++ events ∧ w'.log.lines = [] ++ lines ∧
      (Request.execution sessionRequest).Announces Rig.vacant.contents w'.outside.contents
        (events.filterMap Event.exchange?) lines := by
  have hdistinct : Rig.vacant.contents.Distinct := Rig.distinct_small []
  have hnumbered : Rig.vacant.contents.Numbered := Rig.numbered_small []
  refine ⟨hdistinct, hnumbered, ?_⟩
  generalize hresult : Session.run (Attempt.executeTestCases { rounds := 3 } sessionRequest).run Rig.deaf
    { outside := Rig.vacant } = result
  have hsome : result.1.isSome = true := by
    rw [← hresult]
    decide +kernel
  have hfirst : result.2.outside.contents.held ⟨"i1"⟩ = some ⟨"m1"⟩ := by
    rw [← hresult]
    decide +kernel
  have hsecond : result.2.outside.contents.held ⟨"i2"⟩ = some ⟨"m1"⟩ := by
    rw [← hresult]
    decide +kernel
  rcases result with ⟨_ | r, w'⟩
  · cases hsome
  · exact ⟨r, w', rfl, hfirst, hsecond, executeTestCases_announces_iff Rig.deaf Rig.contents
      Rig.faithful_deaf { rounds := 3 } sessionRequest _ w' r hdistinct hnumbered hresult⟩

/-- An item cannot be given its own test set back, since the order to do so is refused. The test set that it
was given meanwhile is deleted, and nothing tells that the item still refers to it. -/
theorem login_left_unannounced :
    let rig := Rig.small (List.replicate 23 none ++ [some .refused])
    rig.contents.Distinct ∧ rig.contents.Numbered ∧ ∃ r w',
      Session.run (Attempt.executeTestCases { rounds := 3 } loginRequest).run Rig.environment
        { outside := rig } = (some r, w') ∧
      (∃ x ∈ w'.events.filterMap Event.exchange?, x.created?.map (·.id) = some ⟨"m1"⟩) ∧
      (∃ x ∈ w'.events.filterMap Event.exchange?, x.answer.isOk = true ∧
        x.call.deleted?.map (·.id) = some ⟨"m1"⟩) ∧
      w'.outside.contents.held ⟨"i1"⟩ = some ⟨"m1"⟩ ∧
      ∀ line ∈ w'.log.lines, line.event ≠ "restore.dangling_test_set" := by
  intro rig
  refine ⟨Rig.distinct_small _, Rig.numbered_small _, ?_⟩
  generalize hresult : Session.run (Attempt.executeTestCases { rounds := 3 } loginRequest).run
    Rig.environment { outside := rig } = result
  have hsome : result.1.isSome = true := by
    rw [← hresult]
    decide +kernel
  have hcreated : ∃ x ∈ result.2.events.filterMap Event.exchange?,
      x.created?.map (·.id) = some ⟨"m1"⟩ := by
    rw [← hresult]
    decide +kernel
  have hdeleted : ∃ x ∈ result.2.events.filterMap Event.exchange?, x.answer.isOk = true ∧
      x.call.deleted?.map (·.id) = some ⟨"m1"⟩ := by
    rw [← hresult]
    decide +kernel
  have hheld : result.2.outside.contents.held ⟨"i1"⟩ = some ⟨"m1"⟩ := by
    rw [← hresult]
    decide +kernel
  have hlines : ∀ line ∈ result.2.log.lines, line.event ≠ "restore.dangling_test_set" := by
    rw [← hresult]
    decide +kernel
  rcases result with ⟨_ | r, w'⟩
  · cases hsome
  · exact ⟨r, w', rfl, hcreated, hdeleted, hheld, hlines⟩

end GuardedRun
