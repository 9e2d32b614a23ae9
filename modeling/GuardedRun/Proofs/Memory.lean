import GuardedRun.Proofs.Protocol
import Mathlib.Data.List.Induction

/-! What a guard remembers, list by list: the test sets that were made for it, and the items that were
assigned or deactivated under it, each once and in the order of their first calls. -/

namespace GuardedRun

namespace Exchange

/-- The test set that a call made. -/
def created? : Exchange → Option TestSet
  | ⟨.createTestSet _ _, .ok testSet⟩ => some testSet
  | _ => none

end Exchange

namespace Call

def deactivated? : Call → Option Item
  | setItemActive item false => some item
  | _ => none

/-- The call makes, fills or deletes a test set, or switches an item on or off. -/
def isReshaping : Call → Bool
  | createTestSet _ _ | addScenarios _ _ | deleteTestSet _ _ | setItemActive _ _ => true
  | _ => false

theorem isReshaping_of_isRedirect {c : Call} (h : c.isRedirect = true) : c.isReshaping = false := by
  cases c <;> first | rfl | cases h

theorem isReshaping_of_isAssignment {c : Call} (h : c.isAssignment = true) :
    c.isReshaping = false := by
  cases c <;> first | rfl | cases h

end Call

theorem Exchange.unmade_of_not_reshaping {x : Exchange} (h : x.call.isReshaping = false) :
    x.created? = none ∧ x.call.deactivated? = none := by
  obtain ⟨call, a⟩ := x
  cases call <;> first | exact ⟨rfl, rfl⟩ | cases h

/-- The changes of a report make no test set and switch no item. -/
theorem Task.Altering.unshaped_of_report {request : ReportRequest}
    {assignment : Option (TestSet × List Item)} {g : Guard} {redirection alteration : Trace}
    {r : Except OrchestrationError Unit}
    (h : Task.Altering (.report request assignment) g redirection alteration r) :
    ∀ x ∈ (redirection ++ alteration).exchanges, x.call.isReshaping = false := by
  rw [Trace.exchanges_append]
  refine List.forall_mem_append.mpr ⟨fun x hx => ?_, fun x hx => ?_⟩
  · exact Call.isReshaping_of_isRedirect (h.redirects x hx)
  · exact Call.isReshaping_of_isAssignment ((h.changes x hx).assigns request assignment rfl)

section

variable {α : Type} [DecidableEq α]

theorem eraseDups_concat (xs : List α) (x : α) :
    (xs ++ [x]).eraseDups = if x ∈ xs.eraseDups then xs.eraseDups else xs.eraseDups ++ [x] := by
  rw [List.eraseDups_append]
  by_cases h : x ∈ xs
  · simp [List.removeAll, h, List.mem_eraseDups]
  · simp [List.removeAll, h, List.mem_eraseDups, List.eraseDups_cons]

theorem nodup_eraseDups (xs : List α) : xs.eraseDups.Nodup := by
  induction xs using List.reverseRecOn with
  | nil => exact List.nodup_nil
  | append_singleton xs x ih =>
    rw [eraseDups_concat]
    by_cases h : x ∈ xs.eraseDups
    · rw [if_pos h]
      exact ih
    · rw [if_neg h, List.nodup_append]
      refine ⟨ih, by simp, fun a ha b hb => ?_⟩
      rw [List.mem_singleton.mp hb]
      exact fun hax => h (hax ▸ ha)

end

namespace Guard

variable {g : Guard} {xs : List Exchange}

/-- Of a deactivation nothing but the item is remembered. -/
theorem rememberDeactivated_keeps (g : Guard) (item : Item) :
    (g.rememberDeactivated item).temporary = g.temporary ∧
      (g.rememberDeactivated item).formerTestSets = g.formerTestSets := by
  unfold rememberDeactivated
  split <;> exact ⟨rfl, rfl⟩

theorem temporary_remember (g : Guard) (x : Exchange) :
    (g.remember x).temporary = g.temporary ++ x.created?.toList := by
  obtain ⟨call, a⟩ := x
  cases call with
  | setItemActive item active =>
    rw [show (g.remember ⟨.setItemActive item active, a⟩) = g.rememberDeactivated item from rfl,
      (g.rememberDeactivated_keeps item).1]
    exact (List.append_nil _).symm
  | createTestSet project name => cases a <;> simp [remember, Exchange.created?, rememberTemporary]
  | itemTestSet item => cases a <;> exact (List.append_nil _).symm
  | _ => exact (List.append_nil _).symm

/-- The test sets to delete are those that the calls made. -/
theorem temporary_rememberAll (g : Guard) (xs : List Exchange) :
    (g.rememberAll xs).temporary = g.temporary ++ xs.filterMap Exchange.created? := by
  induction xs generalizing g with
  | nil => exact (List.append_nil _).symm
  | cons x xs ih =>
    rw [rememberAll_cons, ih, temporary_remember, List.append_assoc]
    cases hx : x.created? <;> simp [hx]

/-- Each deactivated item is remembered once. -/
theorem deactivated_rememberAll {known : List Item} (hg : g.deactivated = known.eraseDups)
    (hxs : ∀ x ∈ xs, ∀ item, x.call ≠ .setItemActive item true) :
    (g.rememberAll xs).deactivated =
      (known ++ xs.filterMap (·.call.deactivated?)).eraseDups := by
  -- along the calls the list stays the one of the items known so far, without their repetitions
  induction xs generalizing g known with
  | nil => simpa using hg
  | cons x xs ih =>
    obtain ⟨hx, hrest⟩ := List.forall_mem_cons.mp hxs
    obtain ⟨call, a⟩ := x
    rw [rememberAll_cons]
    cases call with
    | setItemActive item active =>
      cases active with
      | true => exact absurd rfl (hx item)
      | false =>
        have hnext : (g.rememberDeactivated item).deactivated = (known ++ [item]).eraseDups := by
          rw [eraseDups_concat, ← hg]
          unfold rememberDeactivated
          split <;> rfl
        have hall := ih hnext hrest
        rw [List.append_assoc] at hall
        exact hall
    | createTestSet project name => cases a <;> exact ih hg hrest
    | itemTestSet item => cases a <;> exact ih hg hrest
    | _ => exact ih hg hrest

theorem Block.assigned (h : g.Block xs) {known : List Item} (hg : g.reassigned = known.eraseDups) :
    (g.rememberAll xs).reassigned = (known ++ xs.filterMap (·.call.assigned?)).eraseDups := by
  cases h with
  -- the item's former test set is remembered only where the item was not known
  | firstAssign item former testSet a fresh =>
    change (g.formerTestSets ++ [(item, former)]).map (·.1) = (known ++ [item]).eraseDups
    rw [hg] at fresh
    rw [eraseDups_concat, if_neg fresh, List.map_append]
    exact congrArg (· ++ [item]) hg
  | nextAssign item testSet a item_known =>
    change g.reassigned = (known ++ [item]).eraseDups
    rw [hg] at item_known
    rw [eraseDups_concat, if_pos item_known]
    exact hg
  | deactivate item a =>
    change (g.rememberDeactivated item).formerTestSets.map (·.1) = (known ++ []).eraseDups
    rw [(g.rememberDeactivated_keeps item).2, List.append_nil]
    exact hg
  | redirectData | redirectReport | unread | uncreated | create =>
    change g.reassigned = (known ++ []).eraseDups
    rw [List.append_nil]
    exact hg

/-- Each assigned item is remembered once, in the order of the first assignments. -/
theorem Blocks.assigned (h : g.Blocks xs) {known : List Item}
    (hg : g.reassigned = known.eraseDups) :
    (g.rememberAll xs).reassigned = (known ++ xs.filterMap (·.call.assigned?)).eraseDups := by
  induction h generalizing known with
  | nil g => simpa using hg
  | cons first rest ih =>
    rw [rememberAll_append, ih (first.assigned hg), List.filterMap_append, List.append_assoc]

namespace Fresh

theorem temporary_rememberAll (hg : g.Fresh) (xs : List Exchange) :
    (g.rememberAll xs).temporary = xs.filterMap Exchange.created? := by
  rw [Guard.temporary_rememberAll, hg.temporary, List.nil_append]

theorem reassigned_rememberAll (hg : g.Fresh) (h : g.Blocks xs) :
    (g.rememberAll xs).reassigned = (xs.filterMap (·.call.assigned?)).eraseDups := by
  have hnone : g.reassigned = ([] : List Item).eraseDups := by
    rw [reassigned, hg.formerTestSets]
    rfl
  exact h.assigned hnone

theorem deactivated_rememberAll (hg : g.Fresh) (h : g.Blocks xs) :
    (g.rememberAll xs).deactivated = (xs.filterMap (·.call.deactivated?)).eraseDups := by
  have hnone : g.deactivated = ([] : List Item).eraseDups := hg.deactivated
  apply Guard.deactivated_rememberAll hnone
  -- no change activates an item
  intro x hx item hcall
  have hkind := h.kinds x hx
  rw [hcall] at hkind
  simp [Call.isRedirect, Call.isChange] at hkind

end Fresh

end Guard

end GuardedRun
