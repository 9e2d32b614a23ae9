import GuardedRun.Proofs.Protocol

/-! What a restore does and reports over all answers to its calls. The changes it makes are told by
the guard alone. What it reports is read off the calls and their answers: each call is looked at by
itself, but that of a deletion, which is blamed on the items that a read-back found holding a set. -/

namespace GuardedRun

variable {σ : Type}

open Guard Session

namespace Exchange

/-- The item that a read-back reports to hold a test set, with the test set. -/
def stillHeld? : Exchange → Option (Item × TestSet)
  | ⟨.itemTestSet item, .ok (some still)⟩ => some (item, still)
  | _ => none

/-- A change of a restore, with the read-back that has to follow it: that of an item which took the
order to hold no test set, since such an order may be ignored. -/
def checked (x : Exchange) : List Call :=
  match x with
  | ⟨.setItemTestSet item none, .ok _⟩ => [.setItemTestSet item none, .itemTestSet item]
  | _ => [x.call]

/-- What there is to report of a call of a restore, given the items that were found holding a set. -/
def faults (held : List (Item × TestSet)) : Exchange → List RestoreFailure
  | ⟨.setItemTestSet item _, .error e⟩ => [.testSet item e]
  | ⟨.itemTestSet item, .ok (some still)⟩ => [.stillAssigned item still]
  | ⟨.itemTestSet item, .error e⟩ => [.unverified item e]
  | ⟨.setDataDir _ _, .error e⟩ => [.dataDir e]
  | ⟨.setReportDir _ _, .error e⟩ => [.reportDir e]
  | ⟨.deleteTestSet _ testSet, .ok _⟩ => dangling held testSet
  | ⟨.deleteTestSet _ testSet, .error e⟩ => [.deletion testSet e]
  | ⟨.setItemActive item _, .error e⟩ => [.activation item e]
  | _ => []

/-- All that some calls of a restore found held. -/
def stillHeld (xs : List Exchange) : List (Item × TestSet) := xs.filterMap stillHeld?

theorem mem_stillHeld {xs : List Exchange} {item : Item} {t : TestSet} :
    (item, t) ∈ stillHeld xs ↔ ⟨.itemTestSet item, .ok (some t)⟩ ∈ xs := by
  rw [stillHeld, List.mem_filterMap]
  constructor
  · rintro ⟨x, hx, hfound⟩
    unfold stillHeld? at hfound
    split at hfound
    · cases hfound
      exact hx
    · cases hfound
  · intro hx
    exact ⟨_, hx, rfl⟩

/-- Only a deletion is blamed on an item that was found holding the test set. -/
theorem dangling_mem_faults {held : List (Item × TestSet)} {x : Exchange} {item : Item}
    {testSet : TestSet} : .dangling item testSet ∈ faults held x ↔
      ∃ project, x = ⟨.deleteTestSet project testSet, .ok ()⟩ ∧
        ∃ t, (item, t) ∈ held ∧ t.id = testSet.id := by
  constructor
  · intro h
    unfold faults at h
    split at h
    case h_6 project set _ =>
      obtain ⟨⟨item', t⟩, hfound, heq⟩ := List.mem_map.mp h
      obtain ⟨rfl, rfl⟩ := RestoreFailure.dangling.inj heq
      obtain ⟨ht, hid⟩ := List.mem_filter.mp hfound
      exact ⟨project, rfl, t, ht, of_decide_eq_true hid⟩
    all_goals simp at h
  · rintro ⟨project, rfl, t, ht, hid⟩
    refine List.mem_map.mpr ⟨(item, t), List.mem_filter.mpr ⟨ht, ?_⟩, rfl⟩
    exact decide_eq_true hid

end Exchange

namespace Guard

/-- Some calls make some changes, each with its read-back and with nothing between, and account for
some failures. -/
structure Accounts (held : List (Item × TestSet)) (changes : List Call) (xs : List Exchange)
    (failures : List RestoreFailure) : Prop where
  changes : (xs.map (·.call)).filter Call.isMutation = changes
  readBacks : xs.map (·.call) = (xs.filter (·.call.isMutation)).flatMap Exchange.checked
  report : failures = xs.flatMap (Exchange.faults held)

theorem Accounts.append {held : List (Item × TestSet)} {xs ys : List Exchange} {cs ds : List Call}
    {failures others : List RestoreFailure} (hx : Accounts held cs xs failures)
    (hy : Accounts held ds ys others) : Accounts held (cs ++ ds) (xs ++ ys) (failures ++ others) := by
  constructor
  · rw [List.map_append, List.filter_append, hx.changes, hy.changes]
  · rw [List.map_append, List.filter_append, List.flatMap_append, hx.readBacks, hy.readBacks]
  · rw [List.flatMap_append, hx.report, hy.report]

/-- Giving an item its test set back is one change, whatever is found of it. -/
theorem Returned.accounts {item : Item} {former : Option TestSet} {xs : List Exchange}
    {failures : List RestoreFailure} {still : Option TestSet}
    (h : Returned item former xs failures still) (held : List (Item × TestSet)) :
    Accounts held [.setItemTestSet item former] xs failures ∧
      Exchange.stillHeld xs = still.toList.map (item, ·) := by
  have hchanges := h.comprises.changes
  cases h with
  | refused former e =>
    -- an order that was not taken is not read back, whatever it was
    refine ⟨⟨hchanges, ?_, rfl⟩, rfl⟩
    cases former <;> rfl
  | given | cleared | held | unverified => exact ⟨⟨hchanges, rfl, rfl⟩, rfl⟩

theorem ReturnedAll.accounts {former : List (Item × Option TestSet)} {xs : List Exchange}
    {failures : List RestoreFailure} {found : List (Item × TestSet)}
    (h : ReturnedAll former xs failures found) (held : List (Item × TestSet)) :
    Accounts held (former.map fun (item, former) => .setItemTestSet item former) xs failures ∧
      Exchange.stillHeld xs = found := by
  induction h with
  | nil => exact ⟨⟨rfl, rfl, rfl⟩, rfl⟩
  | cons first next ih =>
    obtain ⟨hfirst, hstill⟩ := first.accounts held
    obtain ⟨hnext, hfound⟩ := ih
    refine ⟨hfirst.append hnext, ?_⟩
    rw [Exchange.stillHeld, List.filterMap_append, ← hstill, ← hfound]
    rfl

theorem Reset.accounts {g : Guard} {xs : List Exchange} {failures : List RestoreFailure}
    (h : g.Reset xs failures) (held : List (Item × TestSet)) :
    Accounts held (if g.directoriesChanged then
      [.setDataDir g.configuration g.formerDataDir, .setReportDir g.configuration g.formerReportDir]
      else []) xs failures ∧ Exchange.stillHeld xs = [] := by
  have hchanges := h.comprises.changes
  cases h with
  | untouched unchanged => exact ⟨⟨hchanges, rfl, rfl⟩, rfl⟩
  | tried changed a b =>
    refine ⟨⟨hchanges, rfl, ?_⟩, rfl⟩
    cases a <;> cases b <;> rfl

/-- Where every call of a family is a change that is never read back, the family accounts for what is
reported of each of its calls. -/
theorem Tried.accounts {ι : Type} {call : ι → Call}
    {report : (i : ι) → Except EngineError (call i).Reply → List RestoreFailure} {is : List ι}
    {xs : List Exchange} {failures : List RestoreFailure} (h : Tried call report is xs failures)
    (held : List (Item × TestSet)) (hcall : ∀ i, (call i).isMutation = true)
    (hchecked : ∀ i a, Exchange.checked ⟨call i, a⟩ = [call i])
    (hreport : ∀ i a, report i a = Exchange.faults held ⟨call i, a⟩)
    (hstill : ∀ i a, Exchange.stillHeld? ⟨call i, a⟩ = none) :
    Accounts held (is.map call) xs failures ∧ Exchange.stillHeld xs = [] := by
  have hchanges := (h.comprises hcall).changes
  induction h with
  | nil => exact ⟨⟨rfl, rfl, rfl⟩, rfl⟩
  | @cons rest xs failures i a next ih =>
    obtain ⟨hnext, hfound⟩ := ih (next.comprises hcall).changes
    refine ⟨⟨hchanges, ?_, ?_⟩, ?_⟩
    · rw [List.map_cons, List.filter_cons, if_pos (hcall i), List.flatMap_cons, hchecked,
        ← hnext.readBacks]
      rfl
    · rw [List.flatMap_cons, hreport, ← hnext.report]
    · rw [Exchange.stillHeld, List.filterMap_cons, hstill]
      exact hfound

/-- A restore blames each deletion on what its own read-backs found, which all come before. -/
theorem Restores.accounts {g : Guard} {xs : List Exchange} {failures : List RestoreFailure}
    (h : g.Restores xs failures) : Accounts (Exchange.stillHeld xs) g.undoing xs failures := by
  cases h with
  | @all xs₁ xs₂ xs₃ xs₄ _ _ _ _ held testSets directories deletions activations =>
    obtain ⟨hsets, hheld⟩ := testSets.accounts held
    obtain ⟨hdirectories, hnone⟩ := directories.accounts held
    obtain ⟨hdeletions, hnone'⟩ := deletions.accounts held (fun _ => rfl) (fun _ _ => rfl)
      (fun _ a => by cases a <;> rfl) (fun _ _ => rfl)
    obtain ⟨hactivations, hnone''⟩ := activations.accounts held (fun _ => rfl)
      (fun _ _ => rfl) (fun _ a => by cases a <;> rfl) (fun _ _ => rfl)
    have hfound : Exchange.stillHeld (xs₁ ++ xs₂ ++ xs₃ ++ xs₄) = held := by
      simp only [Exchange.stillHeld, List.filterMap_append] at hheld hnone hnone' hnone'' ⊢
      rw [hheld, hnone, hnone', hnone'', List.append_nil, List.append_nil, List.append_nil]
    rw [hfound]
    exact ((hsets.append hdirectories).append hdeletions).append hactivations

end Guard

/-- A restore returns over any answers whatever. It makes the changes that undo what the guard
remembers, reads an item back where it took the order to hold no test set, reports just what failed
or was found held, and notes each report as an error, in the same order. -/
theorem restore_tries_all (env : Environment σ) (g : Guard) (w : World σ) :
    ∃ failures w' events lines, Session.run g.restore env w = (some failures, w') ∧
      w'.events = w.events ++ events ∧ w'.log.lines = w.log.lines ++ lines ∧
      Guard.Accounts (Exchange.stillHeld (events.filterMap Event.exchange?)) g.undoing
        (events.filterMap Event.exchange?) failures ∧
      lines.filter (·.level = .error) = failures.map RestoreFailure.line := by
  have hreturns : Returns env w g.restore fun t failures =>
      g.Restores t.exchanges failures ∧ t.errors = failures.map RestoreFailure.line :=
    returns_restore g
  obtain ⟨t, failures, w', hrun, hl, -, hrestores, herrors⟩ := hreturns
  exact ⟨failures, w', t.events, t.lines, hrun, hl.events, hl.lines, hrestores.accounts, herrors⟩

end GuardedRun
