import GuardedRun.Proofs.Bookkeeping
import GuardedRun.Proofs.Passage
import GuardedRun.Proofs.PathComponents
import GuardedRun.Proofs.Planning
import Mathlib.Data.List.Pairwise

/-! Open projects. The engine opens whatever it is asked to, once more if it is asked once more; that a
project is open at most once is the doing of those who look before they ask. -/

namespace GuardedRun

open Session MonadSession

variable {σ : Type} {env : Environment σ} {w : World σ}

/-- The open projects are told apart by their ids and by their paths. -/
structure Project.Apart (ps : List Project) : Prop where
  ids : ps.Pairwise fun p q => p.id ≠ q.id
  paths : ps.Pairwise fun p q => ¬ p.path.same q.path

/-- Each open project is listed, under some spelling of the path it was opened with, and nothing else is. -/
structure Project.Lists (listed ps : List Project) : Prop where
  sound : ∀ p ∈ listed, ∃ q ∈ ps, q.id = p.id ∧ q.path.same p.path
  complete : ∀ q ∈ ps, ∃ p ∈ listed, q.id = p.id ∧ q.path.same p.path

open Project

/-- What a call does to the open projects, each with the path it was opened with: one that is opened gets
an id of its own, one is closed by its id, and a call that fails does nothing. -/
def Exchange.Hosts (x : Exchange) (ps ps' : List Project) : Prop :=
  match x with
  | ⟨.openProjects, .ok listed⟩ => Lists listed ps ∧ ps' = ps
  | ⟨.openProject path, .ok project⟩ => (∀ p ∈ ps, p.id ≠ project.id) ∧
    ∃ before after, ps = before ++ after ∧ ps' = before ++ ⟨project.id, path⟩ :: after
  | ⟨.closeProject project, .ok _⟩ => ps' = ps.filter (·.id ≠ project.id)
  | _ => ps' = ps

namespace Path

variable {p q r : Path}

theorem same_symm (h : p.same q) : q.same p := same_iff.mpr (same_iff.mp h).symm

theorem same_trans (h : p.same q) (h' : q.same r) : p.same r :=
  same_iff.mpr ((same_iff.mp h).trans (same_iff.mp h'))

end Path

namespace Project

variable {path : Path} {p q : Project} {ps listed : List Project}

theorem mem_of_findProject (h : findProject path listed = some p) : p ∈ listed ∧ p.path.same path := by
  unfold findProject at h
  have hpath := List.find?_some h
  exact ⟨List.mem_of_find?_eq_some h, hpath⟩

/-- The project that is found is one that is open. -/
theorem Lists.found (h : Lists listed ps) (hfound : findProject path listed = some p) :
    ∃ q ∈ ps, q.id = p.id ∧ q.path.same path := by
  obtain ⟨hmem, hpath⟩ := mem_of_findProject hfound
  obtain ⟨q, hq, hid, hsame⟩ := h.sound p hmem
  exact ⟨q, hq, hid, Path.same_trans hsame hpath⟩

/-- Where no project is found, none is open. -/
theorem Lists.missing (h : Lists listed ps) (hmissing : findProject path listed = none) :
    ∀ q ∈ ps, ¬ q.path.same path := by
  intro q hq hpath
  obtain ⟨p, hp, -, hsame⟩ := h.complete q hq
  unfold findProject at hmissing
  exact List.find?_eq_none.mp hmissing p hp (Path.same_trans (Path.same_symm hsame) hpath)

namespace Apart

theorem eq_of_path (h : Apart ps) (hp : p ∈ ps) (hq : q ∈ ps) (hsame : p.path.same q.path) : p = q := by
  by_contra hne
  have hsymm : Std.Symm fun p q : Project => ¬ p.path.same q.path :=
    ⟨fun _ _ hne hsame => hne (Path.same_symm hsame)⟩
  exact h.paths.forall hp hq hne hsame

theorem eq_of_id (h : Apart ps) (hp : p ∈ ps) (hq : q ∈ ps) (hid : p.id = q.id) : p = q := by
  by_contra hne
  have hsymm : Std.Symm fun p q : Project => p.id ≠ q.id := ⟨fun _ _ hne => hne.symm⟩
  exact h.ids.forall hp hq hne hid

theorem filter (h : Apart ps) (keep : Project → Bool) : Apart (ps.filter keep) :=
  ⟨h.ids.filter _, h.paths.filter _⟩

/-- A project of another id and another path may stand among those that are apart. -/
theorem insert {before after : List Project} (h : Apart (before ++ after))
    (hid : ∀ q ∈ before ++ after, q.id ≠ p.id) (hpath : ∀ q ∈ before ++ after, ¬ q.path.same p.path) :
    Apart (before ++ p :: after) := by
  constructor
  · rw [List.pairwise_middle fun h => h.symm, List.pairwise_cons]
    exact ⟨fun q hq => (hid q hq).symm, h.ids⟩
  · rw [List.pairwise_middle fun h hsame => h (Path.same_symm hsame), List.pairwise_cons]
    exact ⟨fun q hq hsame => hpath q hq (Path.same_symm hsame), h.paths⟩

end Apart

end Project

namespace Exchange

/-- If the call opens a project, then none of its path is open. -/
def Vacant (x : Exchange) (ps : List Project) : Prop :=
  match x with
  | ⟨.openProject path, .ok _⟩ => ∀ p ∈ ps, ¬ p.path.same path
  | _ => True

theorem vacant_listing (answer : Except EngineError Call.openProjects.Reply) (ps : List Project) :
    Vacant ⟨.openProjects, answer⟩ ps := trivial

theorem Hosts.apart {x : Exchange} {ps ps' : List Project} (h : x.Hosts ps ps') (hvacant : x.Vacant ps)
    (hapart : Apart ps) : Apart ps' := by
  obtain ⟨call, answer⟩ := x
  cases answer with
  | error e =>
    have hsame : ps' = ps := by
      cases call <;> exact h
    rwa [hsame]
  | ok reply =>
    cases call with
    | openProjects =>
      obtain ⟨-, hsame⟩ := h
      rwa [hsame]
    | openProject path =>
      obtain ⟨hfresh, before, after, rfl, rfl⟩ := h
      exact hapart.insert hfresh hvacant
    | closeProject project =>
      obtain rfl : ps' = ps.filter (·.id ≠ project.id) := h
      exact hapart.filter _
    | _ =>
      obtain rfl : ps' = ps := h
      exact hapart

end Exchange

namespace Attempt

/-- How closing a project may go. -/
inductive Closing (path : Path) : List Exchange → Except EngineError Bool → Prop
  | unlisted (e) : Closing path [⟨.openProjects, .error e⟩] (.error e)
  | absent {listed} (missing : findProject path listed = none) :
    Closing path [⟨.openProjects, .ok listed⟩] (.ok false)
  | refused {listed project} (found : findProject path listed = some project) (e) :
    Closing path [⟨.openProjects, .ok listed⟩, ⟨.closeProject project, .error e⟩] (.error e)
  | closed {listed project} (found : findProject path listed = some project) :
    Closing path [⟨.openProjects, .ok listed⟩, ⟨.closeProject project, .ok ()⟩] (.ok true)

theorem returns_closing (path : Path) :
    Returns env w (closeProject path).run fun t r => Closing path t.exchanges r := by
  unfold closeProject
  apply Attempt.returns_ask_bind
  · intro raised e
    simpa using Closing.unlisted e
  · intro raised listed w₁
    cases hfound : findProject path listed with
    | none =>
      apply returns_note_bind
      intro w₂
      apply Returns.pure
      simpa using Closing.absent hfound
    | some project =>
      apply Attempt.returns_ask_bind
      · intro raised' e
        simpa using Closing.refused hfound e
      · intro raised' u w₂
        apply returns_note_bind
        intro w₃
        apply Returns.pure
        simpa using Closing.closed hfound

end Attempt

/-- What is asked for with regard to a project. -/
inductive ProjectOperation
  | ensure (path : Path)
  | close (path : Path)

namespace ProjectOperation

/-- Does what is asked for; whether it succeeds makes no difference to what comes after. -/
def perform : ProjectOperation → Session σ Unit
  | ensure path => (Attempt.ensureProjectOpen path).run >>= fun _ => pure ()
  | close path => (Attempt.closeProject path).run >>= fun _ => pure ()

def performAll : List ProjectOperation → Session σ Unit
  | [] => pure ()
  | operation :: rest => operation.perform >>= fun _ => performAll rest

/-- The calls of one operation, however it ends. -/
inductive Performed : ProjectOperation → List Exchange → Prop
  | ensured {path xs r} (ensuring : Attempt.Ensuring path xs r) : Performed (.ensure path) xs
  | closed {path xs r} (closing : Attempt.Closing path xs r) : Performed (.close path) xs

/-- The calls of some operations, one operation after the other. -/
inductive PerformedAll : List ProjectOperation → List Exchange → Prop
  | nil : PerformedAll [] []
  | cons {operation rest xs ys} (first : Performed operation xs) (next : PerformedAll rest ys) :
    PerformedAll (operation :: rest) (xs ++ ys)

theorem returns_perform (operation : ProjectOperation) :
    Returns env w operation.perform fun t _ => Performed operation t.exchanges := by
  cases operation with
  | ensure path =>
    apply Returns.bind (Attempt.returns_ensuring path)
    intro t r w₁ _ h
    apply Returns.pure
    rw [Trace.append_nil]
    exact .ensured h.1
  | close path =>
    apply Returns.bind (Attempt.returns_closing path)
    intro t r w₁ _ h
    apply Returns.pure
    rw [Trace.append_nil]
    exact .closed h

theorem returns_performAll (operations : List ProjectOperation) :
    Returns env w (performAll operations) fun t _ => PerformedAll operations t.exchanges := by
  induction operations generalizing w with
  | nil => exact .pure .nil
  | cons operation rest ih =>
    apply Returns.bind (returns_perform operation)
    intro t u w₁ _ h
    apply ih.mono
    intro t' u' h'
    rw [Trace.exchanges_append]
    exact .cons h h'

variable {path : Path} {ps ps' : List Project} {xs ys : List Exchange}

/-- An operation begins with a listing, and it opens a project only where the listing has none. -/
theorem Performed.shape {operation : ProjectOperation} (h : Performed operation xs) :
    (∃ answer, xs = [⟨.openProjects, answer⟩]) ∨
      ∃ listed x, xs = [⟨.openProjects, .ok listed⟩, x] ∧ ∀ ps, Lists listed ps → x.Vacant ps := by
  cases h with
  | ensured ensuring =>
    cases ensuring with
    | unlisted e => exact .inl ⟨.error e, rfl⟩
    | reused => exact .inl ⟨.ok _, rfl⟩
    | refused missing e => exact .inr ⟨_, _, rfl, fun ps _ => trivial⟩
    | opened missing project => exact .inr ⟨_, _, rfl, fun ps hlists => hlists.missing missing⟩
  | closed closing =>
    cases closing with
    | unlisted e => exact .inl ⟨.error e, rfl⟩
    | absent => exact .inl ⟨.ok _, rfl⟩
    | refused found e => exact .inr ⟨_, _, rfl, fun ps _ => trivial⟩
    | closed found => exact .inr ⟨_, _, rfl, fun ps _ => trivial⟩

/-- Whoever opens a project only where none of its path is open, and closes one, keeps the projects
apart at every moment. -/
theorem Performed.apart {operation : ProjectOperation} (h : Performed operation xs) (hys : ys <+: xs)
    (hp : Passes Exchange.Hosts ps ys ps') (hapart : Apart ps) : Apart ps' := by
  -- the history stops before, between or after the one or two calls
  rcases h.shape with ⟨answer, rfl⟩ | ⟨listed, x, rfl, hvacant⟩
  · rcases List.prefix_cons_iff.mp hys with rfl | ⟨rest, rfl, hrest⟩
    · rwa [passes_nil.mp hp]
    · rw [List.prefix_nil.mp hrest, passes_singleton] at hp
      exact hp.apart (Exchange.vacant_listing answer ps) hapart
  · rcases List.prefix_cons_iff.mp hys with rfl | ⟨rest, rfl, hrest⟩
    · rwa [passes_nil.mp hp]
    · obtain ⟨ps₁, ⟨hlists, rfl⟩, hp'⟩ := passes_cons.mp hp
      rcases List.prefix_cons_iff.mp hrest with rfl | ⟨rest', rfl, hrest'⟩
      · rwa [passes_nil.mp hp']
      · rw [List.prefix_nil.mp hrest', passes_singleton] at hp'
        exact hp'.apart (hvacant _ hlists) hapart

theorem PerformedAll.apart {operations : List ProjectOperation} (h : PerformedAll operations xs)
    (hys : ys <+: xs) (hp : Passes Exchange.Hosts ps ys ps') (hapart : Apart ps) : Apart ps' := by
  induction h generalizing ps ys with
  | nil =>
    rw [List.prefix_nil.mp hys, passes_nil] at hp
    rwa [hp]
  | @cons operation rest xs zs first next ih =>
    obtain ⟨end', hsplit⟩ := hys
    -- the history stops within the first operation or within the later ones
    rcases List.append_eq_append_iff.mp hsplit with ⟨tail, hxs, -⟩ | ⟨tail, rfl, hzs⟩
    · exact first.apart ⟨tail, hxs.symm⟩ hp hapart
    · obtain ⟨ps₁, hfirst, hnext⟩ := passes_append.mp hp
      have hapart₁ : Apart ps₁ := first.apart (List.prefix_refl xs) hfirst hapart
      exact ih ⟨end', hzs.symm⟩ hnext hapart₁

end ProjectOperation

/-- What comes of making sure of a project: what is open before and after, the calls and the result. -/
structure Ensures (path : Path) (ps ps' : List Project) (xs : List Exchange)
    (r : Except OrchestrationError Project) : Prop where
  calls : ∀ x ∈ xs, x.call = .openProjects ∨ x.call = .openProject path
  /-- Once the open projects are listed, one is opened exactly where none is open. -/
  opens : ∀ listed, ⟨.openProjects, .ok listed⟩ ∈ xs →
    ((∃ answer, ⟨.openProject path, answer⟩ ∈ xs) ↔ ∀ p ∈ ps, ¬ p.path.same path)
  /-- Otherwise the result is the handle of the open one, as the listing has it. -/
  reuses : ∀ listed, ⟨.openProjects, .ok listed⟩ ∈ xs → ∀ p ∈ ps, p.path.same path →
    ∃ handle ∈ listed, handle.id = p.id ∧ handle.path.same path ∧ r = .ok handle
  succeeds : (∀ x ∈ xs, x.succeeded) → ∃ project, r = .ok project
  hands : ∀ project, r = .ok project → ∃ p ∈ ps', p.id = project.id ∧ p.path.same path
  others : ps'.filter (¬ ·.path.same path) = ps.filter (¬ ·.path.same path)
  failing : ∀ e, r = .error e → ps' = ps

/-- What comes of closing a project. -/
structure Closes (path : Path) (ps ps' : List Project) (xs : List Exchange)
    (r : Except EngineError Bool) : Prop where
  calls : ∀ x ∈ xs, x.call = .openProjects ∨ ∃ project, x.call = .closeProject project
  /-- What is told to close is what is open under the path. -/
  closes : ∀ project answer, ⟨.closeProject project, answer⟩ ∈ xs →
    ∃ p ∈ ps, p.id = project.id ∧ p.path.same path
  /-- Once the open projects are listed, an open one is told to close. -/
  insists : ∀ listed, ⟨.openProjects, .ok listed⟩ ∈ xs → ∀ p ∈ ps, p.path.same path →
    ∃ project answer, ⟨.closeProject project, answer⟩ ∈ xs
  answers : (∀ x ∈ xs, x.succeeded) → r = .ok (ps.any (·.path.same path))
  gone : ∀ found, r = .ok found → ∀ p ∈ ps', ¬ p.path.same path
  others : ps'.filter (¬ ·.path.same path) = ps.filter (¬ ·.path.same path)
  failing : ∀ e, r = .error e → ps' = ps

/-- Where nothing is open under a path, closing it comes to nothing. -/
theorem Closes.idle {path : Path} {ps ps' : List Project} {xs : List Exchange}
    {r : Except EngineError Bool} (h : Closes path ps ps' xs r)
    (hnone : ∀ p ∈ ps, ¬ p.path.same path) :
    ps' = ps ∧ (∀ project answer, ⟨.closeProject project, answer⟩ ∉ xs) ∧
      ((∀ x ∈ xs, x.succeeded) → r = .ok false) := by
  have hall : ps.filter (¬ ·.path.same path) = ps := by simpa using hnone
  refine ⟨?_, ?_, ?_⟩
  · cases r with
    | error e => exact h.failing e rfl
    | ok found =>
      have hall' : ps'.filter (¬ ·.path.same path) = ps' := by simpa using h.gone found rfl
      calc ps' = ps'.filter (¬ ·.path.same path) := hall'.symm
        _ = ps.filter (¬ ·.path.same path) := h.others
        _ = ps := hall
  · intro project answer hmem
    obtain ⟨p, hp, -, hsame⟩ := h.closes project answer hmem
    exact hnone p hp hsame
  · intro hcalls
    have hany : ps.any (·.path.same path) = false := by simpa using hnone
    rw [h.answers hcalls, hany]

namespace Attempt

variable {path : Path} {ps ps' : List Project} {xs : List Exchange}

theorem Ensuring.ensures {r : Except OrchestrationError Project} (h : Ensuring path xs r)
    (hp : Passes Exchange.Hosts ps xs ps') (hapart : Apart ps) : Ensures path ps ps' xs r := by
  cases h with
  | unlisted e e' =>
    obtain rfl : ps' = ps := passes_singleton.mp hp
    constructor <;> simp [Exchange.succeeded]
  | @reused listed project found =>
    obtain ⟨hlists, rfl⟩ := passes_singleton.mp hp
    obtain ⟨q, hq, hid, hpath⟩ := hlists.found found
    obtain ⟨hlisted, hproject⟩ := mem_of_findProject found
    constructor
    · simp
    · intro listed' _
      simp only [List.mem_singleton, Exchange.mk.injEq, reduceCtorEq, false_and, exists_false, false_iff]
      exact fun hnone => hnone q hq hpath
    · intro listed' hmem p hmemp hsame
      obtain rfl : p = q := hapart.eq_of_path hmemp hq (Path.same_trans hsame (Path.same_symm hpath))
      obtain rfl : listed' = listed := by simpa using hmem
      exact ⟨project, hlisted, hid.symm, hproject, rfl⟩
    · exact fun _ => ⟨project, rfl⟩
    · rintro _ ⟨⟩
      exact ⟨q, hq, hid, hpath⟩
    · rfl
    · exact nofun
  | @refused listed missing e e' =>
    obtain ⟨ps₁, ⟨hlists, rfl⟩, hrest⟩ := passes_cons.mp hp
    obtain rfl : ps' = ps₁ := passes_singleton.mp hrest
    have hnone := hlists.missing missing
    constructor
    · simp
    · exact fun _ _ => ⟨fun _ => hnone, fun _ => ⟨.error e, by simp⟩⟩
    · exact fun _ _ p hmem hsame => absurd hsame (hnone p hmem)
    · simp [Exchange.succeeded]
    · exact nofun
    · rfl
    · exact fun _ _ => rfl
  | @opened listed missing project =>
    obtain ⟨ps₁, ⟨hlists, rfl⟩, hrest⟩ := passes_cons.mp hp
    obtain ⟨-, before, after, rfl, rfl⟩ := passes_singleton.mp hrest
    have hnone := hlists.missing missing
    constructor
    · simp
    · exact fun _ _ => ⟨fun _ => hnone, fun _ => ⟨.ok project, by simp⟩⟩
    · exact fun _ _ p hmem hsame => absurd hsame (hnone p hmem)
    · exact fun _ => ⟨project, rfl⟩
    · rintro _ ⟨⟩
      exact ⟨⟨project.id, path⟩, by simp, rfl, Path.same_refl path⟩
    · simp
    · exact nofun

theorem told_of_mem {listed : List Project} {project project' : Project} {answer answer'}
    (h : ⟨.closeProject project', answer'⟩ ∈
      [(⟨.openProjects, .ok listed⟩ : Exchange), ⟨.closeProject project, answer⟩]) :
    project' = project := by
  simp only [List.mem_cons, Exchange.mk.injEq, reduceCtorEq, false_and, Call.closeProject.injEq,
    List.not_mem_nil, or_false, false_or] at h
  exact h.1

theorem Closing.closes {r : Except EngineError Bool} (h : Closing path xs r)
    (hp : Passes Exchange.Hosts ps xs ps') (hapart : Apart ps) : Closes path ps ps' xs r := by
  cases h with
  | unlisted e =>
    obtain rfl : ps' = ps := passes_singleton.mp hp
    constructor <;> simp [Exchange.succeeded]
  | @absent listed missing =>
    obtain ⟨hlists, rfl⟩ := passes_singleton.mp hp
    have hnone := hlists.missing missing
    have hany : ps'.any (·.path.same path) = false := by simpa using hnone
    constructor
    · simp
    · simp
    · exact fun _ _ p hmem hsame => absurd hsame (hnone p hmem)
    · exact fun _ => by rw [hany]
    · exact fun _ _ => hnone
    · rfl
    · exact nofun
  | @refused listed project found e =>
    obtain ⟨ps₁, ⟨hlists, rfl⟩, hrest⟩ := passes_cons.mp hp
    obtain rfl : ps' = ps₁ := passes_singleton.mp hrest
    obtain ⟨q, hq, hid, hpath⟩ := hlists.found found
    constructor
    · simp
    · intro project' answer hmem
      obtain rfl := told_of_mem hmem
      exact ⟨q, hq, hid, hpath⟩
    · exact fun _ _ _ _ _ => ⟨project, .error e, by simp⟩
    · simp [Exchange.succeeded]
    · exact nofun
    · rfl
    · exact fun _ _ => rfl
  | @closed listed project found =>
    obtain ⟨ps₁, ⟨hlists, rfl⟩, hrest⟩ := passes_cons.mp hp
    obtain rfl := passes_singleton.mp hrest
    obtain ⟨q, hq, hid, hpath⟩ := hlists.found found
    -- the project of that id is the one of that path, so no other one goes
    have hone : ∀ p ∈ ps₁, p.id = project.id ↔ p.path.same path := by
      intro p hmem
      constructor
      · intro h
        rwa [hapart.eq_of_id hmem hq (h.trans hid.symm)]
      · intro h
        rw [hapart.eq_of_path hmem hq (Path.same_trans h (Path.same_symm hpath)), hid]
    have hany : ps₁.any (·.path.same path) = true := List.any_eq_true.mpr ⟨q, hq, hpath⟩
    constructor
    · simp
    · intro project' answer hmem
      obtain rfl := told_of_mem hmem
      exact ⟨q, hq, hid, hpath⟩
    · exact fun _ _ _ _ _ => ⟨project, .ok (), by simp⟩
    · exact fun _ => by rw [hany]
    · intro _ _ p hmem hsame
      obtain ⟨hbefore, hkept⟩ := List.mem_filter.mp hmem
      exact of_decide_eq_true hkept ((hone p hbefore).mpr hsame)
    · rw [List.filter_filter]
      apply List.filter_congr
      intro p hmem
      simp only [hone p hmem, decide_not, Bool.and_self]
    · exact nofun

end Attempt

/-- The session ends with a value, and the open projects before and after it, its calls and its value
stand in a relation. -/
def Session.Turns {α : Type} (opened : σ → List Project) (env : Environment σ) (w : World σ)
    (s : Session σ α) (S : List Project → List Project → List Exchange → α → Prop) : Prop :=
  ∃ t a w', s.run env w = (some a, w') ∧ Leads env w t w' ∧
    S (opened w.outside) (opened w'.outside) t.exchanges a

namespace Attempt

variable {opened : σ → List Project}

theorem turns_ensureProjectOpen (hkept : Kept env opened Exchange.Hosts)
    (hapart : Apart (opened w.outside)) (path : Path) :
    Turns opened env w (ensureProjectOpen path).run (Ensures path) := by
  have hreturns : Returns env w (ensureProjectOpen path).run fun t r => Ensuring path t.exchanges r :=
    (returns_ensuring path).mono fun _ _ h => h.1
  obtain ⟨t, r, w', hrun, hl, -, h⟩ := hreturns
  exact ⟨t, r, w', hrun, hl, h.ensures (hkept.passes_of_leads hl) hapart⟩

theorem turns_closeProject (hkept : Kept env opened Exchange.Hosts)
    (hapart : Apart (opened w.outside)) (path : Path) :
    Turns opened env w (closeProject path).run (Closes path) := by
  have hreturns : Returns env w (closeProject path).run fun t r => Closing path t.exchanges r :=
    returns_closing path
  obtain ⟨t, r, w', hrun, hl, -, h⟩ := hreturns
  exact ⟨t, r, w', hrun, hl, h.closes (hkept.passes_of_leads hl) hapart⟩

end Attempt

open Attempt ProjectOperation

/-- However often projects are asked for and closed, under whatever spellings and with whatever failures,
each is open at most once at every moment. Whatever came before, making sure of a project opens it exactly
where it is not open; closing it closes it, and closing it once more does nothing. -/
theorem projects_open_once (opened : σ → List Project) (hkept : Kept env opened Exchange.Hosts)
    (operations : List ProjectOperation) (w : World σ) (hapart : Apart (opened w.outside)) :
    ∃ t w', (performAll operations).run env w = (some (), w') ∧ Leads env w t w' ∧
      (∀ before after, t.events = before ++ after → Apart (opened (env.replay w.outside before))) ∧
      (∀ path path', Path.Respelled path path' → path.same path') ∧
      (∀ path, Turns opened env w' (ensureProjectOpen path).run (Ensures path)) ∧
      (∀ path, Turns opened env w' (closeProject path).run (Closes path)) ∧
      ∀ path found w₁, (closeProject path).run.run env w' = (some (.ok found), w₁) →
        ∀ again : Path, again.same path →
          Turns opened env w₁ (closeProject again).run fun ps ps' xs r =>
            ps' = ps ∧ (∀ project answer, ⟨.closeProject project, answer⟩ ∉ xs) ∧
              ((∀ x ∈ xs, x.succeeded) → r = .ok false) := by
  have hreturns : Returns env w (performAll operations) fun t _ =>
    PerformedAll operations t.exchanges := returns_performAll operations
  obtain ⟨t, u, w', hrun, hl, -, hperformed⟩ := hreturns
  have hmoment : ∀ before after, t.events = before ++ after →
      Apart (opened (env.replay w.outside before)) := by
    intro before after hsplit
    obtain ⟨hpasses, hexchanges⟩ := hkept.passes_before hl hsplit
    exact hperformed.apart ⟨_, hexchanges.symm⟩ hpasses hapart
  have hapart' : Apart (opened w'.outside) := by
    rw [hl.outside]
    exact hmoment t.events [] (List.append_nil _).symm
  refine ⟨t, w', hrun, hl, hmoment, fun _ _ => Path.Respelled.same,
    turns_ensureProjectOpen hkept hapart', turns_closeProject hkept hapart', ?_⟩
  intro path found w₁ hclose again hagain
  have hreturns' : Returns env w' (closeProject path).run fun t r => Closing path t.exchanges r :=
    returns_closing path
  obtain ⟨t₁, r₁, w₁', hrun₁, hl₁, -, hclosing⟩ := hreturns'
  obtain ⟨⟨⟩, rfl⟩ : some r₁ = some (.ok found) ∧ w₁' = w₁ :=
    Prod.mk.inj (hrun₁.symm.trans hclose)
  have hpasses := hkept.passes_of_leads hl₁
  have hapart₁ : Apart (opened w₁'.outside) :=
    (Performed.closed hclosing).apart (List.prefix_refl _) hpasses hapart'
  have hnone : ∀ p ∈ opened w₁'.outside, ¬ p.path.same again := by
    intro p hp hsame
    have hgone := (hclosing.closes hpasses hapart').gone found rfl
    exact hgone p hp (Path.same_trans hsame hagain)
  obtain ⟨t₂, r₂, w₂, hrun₂, hl₂, hcloses₂⟩ := turns_closeProject hkept hapart₁ again
  exact ⟨t₂, r₂, w₂, hrun₂, hl₂, hcloses₂.idle hnone⟩

/-- An engine that keeps projects and nothing else, and refuses calls by a schedule. -/
structure Desk where
  projects : List Project
  /-- Which of the calls to come are refused. -/
  refusals : List Bool := []

namespace Desk

/-- The length of the longest id of the projects. -/
def longest (ps : List Project) : Nat := ps.foldr (fun p n => max p.id.text.length n) 0

theorem length_le_longest {p : Project} {ps : List Project} (hp : p ∈ ps) :
    p.id.text.length ≤ longest ps := by
  induction ps with
  | nil => cases hp
  | cons q rest ih =>
    have hstep : longest (q :: rest) = max q.id.text.length (longest rest) := rfl
    rcases List.mem_cons.mp hp with rfl | hp
    · omega
    · have hrest := ih hp
      omega

/-- An id longer than those of all the projects. -/
def freshId (ps : List Project) : ObjectId := ⟨String.ofList (List.replicate (longest ps + 1) 'p')⟩

theorem ne_freshId {p : Project} {ps : List Project} (hp : p ∈ ps) : p.id ≠ freshId ps := by
  intro h
  have hlength : p.id.text.length = longest ps + 1 := by
    rw [h, freshId]
    simp
  have hle := length_le_longest hp
  omega

def answer (call : Call) (desk : Desk) : Except EngineError call.Reply × Desk :=
  let after := { desk with refusals := desk.refusals.tail }
  if desk.refusals.head? = some true then (.error (.application call.method "refused" []), after)
  else
    match call with
    | .openProjects => (.ok desk.projects, after)
    | .openProject path =>
      let project : Project := { id := freshId desk.projects, path }
      (.ok project, { after with projects := desk.projects ++ [project] })
    | .closeProject project =>
      (.ok (), { after with projects := desk.projects.filter (·.id ≠ project.id) })
    | call => (.error (.application call.method "unknown" []), after)

def environment : Environment Desk where
  answer := answer
  launch := fun _ _ desk => (.error "nothing is started here", desk)
  pause := fun _ desk => desk
  isFile := fun _ _ => false
  interrupted := fun _ => false
  clock := fun _ => 0
  stamp := fun _ => .ofMilliseconds 0

theorem lists_self (ps : List Project) : Lists ps ps where
  sound p hp := ⟨p, hp, rfl, Path.same_refl _⟩
  complete p hp := ⟨p, hp, rfl, Path.same_refl _⟩

theorem kept : Kept environment projects Exchange.Hosts where
  answers call desk := by
    change Exchange.Hosts ⟨call, (answer call desk).1⟩ desk.projects (answer call desk).2.projects
    unfold answer
    dsimp only
    split
    · cases call <;> rfl
    · cases call with
      | openProjects => exact ⟨lists_self _, rfl⟩
      | openProject path =>
        refine ⟨fun p hp => ne_freshId hp, desk.projects, [], ?_, rfl⟩
        rw [List.append_nil]
      | closeProject project => rfl
      | _ => rfl
  pauses _ _ := rfl
  launches _ _ _ := rfl

end Desk

/-- A project that is asked for in three spellings is open once, also where its closing is refused. -/
theorem shop_open_once : let w : World Desk :=
      { outside := { projects := [⟨⟨"p"⟩, ⟨"/work/till"⟩⟩], refusals := [false, false, false, true] } }
    Apart w.outside.projects ∧
      ∃ (t : Trace) (w' : World Desk),
        (performAll [.ensure ⟨"/work/shop"⟩, .close ⟨"/work//shop/"⟩, .ensure ⟨"/work/./shop"⟩]).run
          Desk.environment w = (some (), w') ∧
        (∀ before after, t.events = before ++ after →
          Apart (Desk.environment.replay w.outside before).projects) ∧
        Turns Desk.projects Desk.environment w' (ensureProjectOpen ⟨"/work/shop/"⟩).run
          (Ensures ⟨"/work/shop/"⟩) := by
  have hapart : Apart [⟨⟨"p"⟩, ⟨"/work/till"⟩⟩] := ⟨List.pairwise_singleton _ _, List.pairwise_singleton _ _⟩
  obtain ⟨t, w', hrun, -, hmoment, -, hensures, -⟩ := projects_open_once Desk.projects Desk.kept
    [.ensure ⟨"/work/shop"⟩, .close ⟨"/work//shop/"⟩, .ensure ⟨"/work/./shop"⟩]
    { outside := { projects := [⟨⟨"p"⟩, ⟨"/work/till"⟩⟩], refusals := [false, false, false, true] } } hapart
  exact ⟨hapart, t, w', hrun, hmoment, hensures _⟩

end GuardedRun
