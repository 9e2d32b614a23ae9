import GuardedRun.Proofs.Changes
import GuardedRun.Proofs.Planning

/-! Plans put into effect. The calls of a plan are changes of its own items; when all goes well they
are, action by action, exactly the ones that the plan asks for. -/

namespace GuardedRun

variable {σ ε α β : Type} {env : Environment σ} {w : World σ} {g : Guard}

open Guarded Session Guard

def ItemAction.item : ItemAction → Item
  | filter item _ => item
  | deactivate item => item

@[simp] theorem ItemAction.item_keeping (item : Item) (kept : List Scenario) :
    (ItemAction.keeping item kept).item = item := by
  unfold keeping
  split <;> rfl

/-- The items that a plan changes. -/
def Plan.items : Plan → List Item
  | unfiltered => []
  | perItem actions => actions.map ItemAction.item
  | shared _ items => items

inductive AssignedAll (testSet : TestSet) : List Item → List Exchange → Prop
  | nil : AssignedAll testSet [] []
  | cons {item rest xs ys} (first : Assigned item testSet xs) (others : AssignedAll testSet rest ys) :
    AssignedAll testSet (item :: rest) (xs ++ ys)

/-- The calls of actions that all went well. -/
inductive Enacted (project : Project) : List ItemAction → List Exchange → Prop
  | nil : Enacted project [] []
  | deactivate {item rest xs} (others : Enacted project rest xs) :
    Enacted project (.deactivate item :: rest) (⟨.setItemActive item false, .ok ()⟩ :: xs)
  | filter {item scenarios rest xs ys} (name testSet) (first : Assigned item testSet xs)
    (others : Enacted project rest ys) :
    Enacted project (.filter item scenarios :: rest)
      (created project name testSet scenarios ++ xs ++ ys)

/-- The calls of a plan that went well. -/
inductive Applied (project : Project) : Plan → List Exchange → Prop
  | unfiltered : Applied project .unfiltered []
  | perItem {actions xs} (h : Enacted project actions xs) : Applied project (.perItem actions) xs
  | shared {scenarios items xs} (name testSet) (h : AssignedAll testSet items xs) :
    Applied project (.shared scenarios items) (created project name testSet scenarios ++ xs)

/-- What changing the items as planned may fail with: a call, or a name that is none for a test set. -/
inductive Blamed (names : TemporaryNames) : OrchestrationError → Prop
  | call (source) : Blamed names (.remoteFault .mutate source)
  | name (number fault)
    (refused : (Name.parse (names.candidate number) : Except NameFault TestSetName) = .error fault) :
    Blamed names (.invalidRequest (fault.message NameKind.testSet.label))

/-- Names of one stem are refused alike, whichever of them are taken. -/
theorem Blamed.of_stem {names names' : TemporaryNames} {e : OrchestrationError}
    (h : Blamed names' e) (hstem : names'.stem = names.stem) : Blamed names e := by
  cases h with
  | call source => exact .call source
  | name number fault refused =>
    have hcandidate : names'.candidate number = names.candidate number := by
      rw [TemporaryNames.candidate, hstem, TemporaryNames.candidate]
    exact .name number fault (hcandidate ▸ refused)

theorem performs_drawName (names : TemporaryNames) (K : Call → Prop) :
    Performs env w g (drawName names) K (Blamed names) fun xs drawn =>
      xs = [] ∧ drawn.2.stem = names.stem := by
  unfold drawName
  cases hdraw : names.draw with
  | mk result names' =>
    have hresult : Name.parse (names.candidate names.freeNumber) = result :=
      congrArg Prod.fst hdraw
    have hstem : names.stem = names'.stem := congrArg (·.2.stem) hdraw
    cases result with
    | ok name => exact .pure ⟨rfl, hstem.symm⟩
    | error fault => exact .throw (.name names.freeNumber fault hresult)

theorem performs_assignAll (testSet : TestSet) (items targets : List Item)
    (hi : items ⊆ targets) {E : OrchestrationError → Prop}
    (he : ∀ source, E (.remoteFault .mutate source)) :
    Performs env w g (assignAll testSet items) (Assigns targets) E fun xs _ =>
      AssignedAll testSet items xs := by
  induction items generalizing g w with
  | nil => exact .pure .nil
  | cons item rest ih =>
    have hitem : item ∈ targets := hi List.mem_cons_self
    have hrest : rest ⊆ targets := fun i h => hi (List.mem_cons_of_mem item h)
    unfold assignAll
    apply Performs.bind ((performs_assign item testSet hitem).atStage he)
    intro xs u w₁ hfirst
    apply (ih hrest).mono (fun _ hc => hc)
    intro ys v hothers
    exact .cons hfirst hothers

theorem performs_applyActions (names : TemporaryNames) (actions : List ItemAction)
    (targets : List Item) (hi : actions.map ItemAction.item ⊆ targets) :
    Performs env w g (applyActions names actions) (Change targets) (Blamed names) fun xs _ =>
      Enacted g.project actions xs := by
  induction actions generalizing g w names with
  | nil => exact .pure .nil
  | cons action rest ih =>
    have hitem : action.item ∈ targets := hi List.mem_cons_self
    have hrest : rest.map ItemAction.item ⊆ targets := fun i h => hi (List.mem_cons_of_mem _ h)
    cases action with
    | deactivate item =>
      unfold applyActions
      apply Performs.bind ((performs_deactivate item hitem).atStage .call)
      intro xs u w₁ h
      obtain rfl := h
      apply (ih names hrest).mono (fun _ hc => hc)
      intro ys v hothers
      rw [project_rememberAll] at hothers
      exact .deactivate hothers
    | filter item scenarios =>
      unfold applyActions
      apply Performs.bind (performs_drawName names _)
      rintro xs ⟨name, names'⟩ w₁ ⟨rfl, hstem⟩
      apply Performs.bind ((performs_createTemporary name scenarios targets).atStage .call)
      intro xs testSet w₂ h
      obtain rfl := h
      apply Performs.bind (((performs_assign item testSet hitem).mono (fun _ hc => hc.toChange)
        (fun _ _ h => h)).atStage .call)
      intro xs u w₃ hfirst
      -- the names that are left have the same stem
      apply ((ih names' hrest).blaming fun e he => he.of_stem hstem).mono (fun _ hc => hc)
      intro ys v hothers
      rw [project_rememberAll, project_rememberAll] at hothers
      have he : Enacted g.project (.filter item scenarios :: rest)
          (created g.project name testSet scenarios ++ xs ++ ys) :=
        .filter name testSet hfirst hothers
      rw [List.append_assoc] at he
      exact he

theorem performs_applyPlan (names : TemporaryNames) (plan : Plan) :
    Performs env w g (applyPlan names plan) (Change plan.items) (Blamed names) fun xs _ =>
      Applied g.project plan xs := by
  cases plan with
  | unfiltered => exact .note .unfiltered
  | perItem actions =>
    apply (performs_applyActions names actions _ (List.Subset.refl _)).mono (fun _ hc => hc)
    intro xs u h
    exact .perItem h
  | shared scenarios items =>
    unfold applyPlan
    apply Performs.bind (performs_drawName names _)
    rintro xs ⟨name, names'⟩ w₁ ⟨rfl, -⟩
    apply Performs.bind ((performs_createTemporary name scenarios items).atStage .call)
    intro xs testSet w₂ h
    obtain rfl := h
    have hall {w : World σ} {g' : Guard} : Performs env w g' (assignAll testSet items)
        (Change items) (Blamed names) fun ys _ => Applied g.project (.shared scenarios items)
          ([] ++ (created g.project name testSet scenarios ++ ys)) := by
      apply (performs_assignAll testSet items items (List.Subset.refl _) .call).mono
        (fun _ hc => hc.toChange)
      intro ys u h
      exact .shared name testSet h
    split
    · exact .note_bind fun w₃ => hall
    · exact hall

end GuardedRun
