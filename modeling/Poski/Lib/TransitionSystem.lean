import Mathlib.Data.List.Basic
import Mathlib.Logic.Relation

/-!
# Labelled Transition Systems with Step Conditions

A system is given by its initial states and its labelled steps. Runs are recorded
with the list of labels they have taken, and are relative to a **step condition**
`P`: a run under `P` takes a step only from a state and with a label that meet `P`.
A law that holds of a system only as long as its users keep to a rule is a law about
the runs under that rule.

## Main definitions

- `TransitionSystem` : initial states and labelled steps
- `TransitionSystem.Run` : runs under a step condition, with their labels
- `TransitionSystem.ReachableWhen` : states that end such a run
- `TransitionSystem.LeadsTo` : states that any steps lead to
- `Simulation` : a forward simulation that maps some labels and hides the others
- `ForwardSimulation` : a forward simulation up to what an observer sees
- `FollowsPath` : a system that has no choice but to go on
-/

namespace Poski.Lib

universe u v w x

/-- A labelled transition system: where it starts and what each label can do. -/
structure TransitionSystem (σ : Type u) (α : Type v) where
  init : σ → Prop
  step : σ → α → σ → Prop

namespace TransitionSystem

variable {σ : Type u} {α : Type v} {M : TransitionSystem σ α} {P : σ → α → Prop}

/-- `M.Run P as s`: some initial state leads to `s` by the labels `as`, and every step
of the way met `P`. The last label taken stands last. -/
inductive Run (M : TransitionSystem σ α) (P : σ → α → Prop) : List α → σ → Prop where
  | start {s : σ} (hinit : M.init s) : Run M P [] s
  | step {as : List α} {s s' : σ} {a : α} (hrun : Run M P as s) (hcond : P s a)
      (hstep : M.step s a s') : Run M P (as ++ [a]) s'

/-- The states that a run under `P` can end in. -/
def ReachableWhen (M : TransitionSystem σ α) (P : σ → α → Prop) (s : σ) : Prop :=
  ∃ as, M.Run P as s

/-- The states that any run can end in. -/
abbrev Reachable (M : TransitionSystem σ α) (s : σ) : Prop :=
  M.ReachableWhen (fun _ _ => True) s

/-- **Run rule**: what holds of the empty history in every initial state and is kept by
every step that meets the condition holds of every run under the condition. -/
theorem Run.invariant {I : List α → σ → Prop}
    (hinit : ∀ s, M.init s → I [] s)
    (hstep : ∀ as s a s', I as s → P s a → M.step s a s' → I (as ++ [a]) s')
    {as : List α} {s : σ} (hrun : M.Run P as s) : I as s := by
  induction hrun with
  | start h => exact hinit _ h
  | step _ hcond hs ih => exact hstep _ _ _ _ ih hcond hs

/-- **Invariant rule**: the run rule for a property of the state alone. -/
theorem ReachableWhen.invariant {I : σ → Prop}
    (hinit : ∀ s, M.init s → I s)
    (hstep : ∀ s a s', I s → P s a → M.step s a s' → I s')
    {s : σ} (h : M.ReachableWhen P s) : I s := by
  obtain ⟨as, hrun⟩ := h
  exact hrun.invariant (I := fun _ s => I s) hinit (fun _ s a s' => hstep s a s')

/-- `Run.step` with its label given. -/
theorem Run.next {as : List α} {s s' : σ} (hrun : M.Run P as s) (a : α) (hcond : P s a)
    (hstep : M.step s a s') : M.Run P (as ++ [a]) s' :=
  .step hrun hcond hstep

/-- A run under a condition is one under any weaker condition. -/
theorem Run.mono {P' : σ → α → Prop} {as : List α} {s : σ} (hrun : M.Run P as s)
    (himp : ∀ s a, P s a → P' s a) : M.Run P' as s := by
  induction hrun with
  | start hinit => exact .start hinit
  | step _ hcond hstep ih => exact .step ih (himp _ _ hcond) hstep

/-- The runs of `M` that begin in a state with `f s = x`. -/
def startingAt {τ : Type*} (M : TransitionSystem σ α) (f : σ → τ) (x : τ) :
    TransitionSystem σ α where
  init s := M.init s ∧ f s = x
  step := M.step

/-- Every run begins somewhere. -/
theorem Run.exists_startingAt {τ : Type*} (f : σ → τ) {as : List α} {s : σ}
    (hrun : M.Run P as s) : ∃ s₀, M.init s₀ ∧ (M.startingAt f (f s₀)).Run P as s := by
  induction hrun with
  | start hinit => exact ⟨_, hinit, .start ⟨hinit, rfl⟩⟩
  | step _ hcond hstep ih =>
    obtain ⟨s₀, hinit, hrun⟩ := ih
    exact ⟨s₀, hinit, .step hrun hcond hstep⟩

/-- What `M` does from `s` on. -/
def resumed (M : TransitionSystem σ α) (s : σ) : TransitionSystem σ α where
  init s' := s' = s
  step := M.step

/-- A run goes on where it has come to. -/
theorem Run.resume {P' : σ → α → Prop} {as bs : List α} {s s' : σ} (hrun : M.Run P as s)
    (hmore : (M.resumed s).Run P' bs s') (hcond : ∀ s a, P' s a → P s a) :
    M.Run P (as ++ bs) s' := by
  induction hmore with
  | start h =>
    cases h
    rwa [List.append_nil]
  | step _ hcond' hstep ih =>
    rw [← List.append_assoc]
    exact .step ih (hcond _ _ hcond') hstep

/-- Some steps, or none, lead from one state to another. -/
def LeadsTo (M : TransitionSystem σ α) : σ → σ → Prop :=
  Relation.ReflTransGen fun s s' => ∃ a, M.step s a s'

/-- What a reachable state leads to is reachable. -/
theorem Reachable.leadsTo {s s' : σ} (hreach : M.Reachable s) (hleads : M.LeadsTo s s') :
    M.Reachable s' := by
  induction hleads with
  | refl => exact hreach
  | tail _ hstep ih =>
    obtain ⟨as, hrun⟩ := ih
    obtain ⟨a, hstep⟩ := hstep
    exact ⟨as ++ [a], hrun.next a trivial hstep⟩

end TransitionSystem

/-- **Progress rule**: let one step lead from every state of `I` that misses the goal to the
goal or to a state of `I` that is closer to it. Then a path leads from `I` to the goal. -/
theorem exists_path_of_closer {σ : Type u} {r : σ → σ → Prop} {I G : σ → Prop} (dist : σ → ℕ)
    (hcloser : ∀ s, I s → ¬G s → ∃ s', r s s' ∧ (G s' ∨ I s' ∧ dist s' < dist s))
    {s : σ} (hI : I s) : ∃ s', Relation.ReflTransGen r s s' ∧ G s' := by
  induction s using (measure dist).wf.induction with
  | h s ih =>
    by_cases hgoal : G s
    · exact ⟨s, .refl, hgoal⟩
    · obtain ⟨s₁, hstep, hgoal₁ | ⟨hI₁, hlt⟩⟩ := hcloser s hI hgoal
      · exact ⟨s₁, .single hstep, hgoal₁⟩
      · obtain ⟨s₂, hpath, hgoal₂⟩ := ih s₁ hlt hI₁
        exact ⟨s₂, .head hstep hpath, hgoal₂⟩

/-! ## Systems without a choice -/

/-- `M` goes from place to place: wherever it is, each of its steps leads to the next place,
and there is a step as long as there is a next place. -/
structure FollowsPath {σ : Type u} {α : Type v} {π : Type w} (M : TransitionSystem σ α)
    (At : π → σ → Prop) (first : π) (next : π → Option π) : Prop where
  init : ∀ s, M.init s → At first s
  step : ∀ p s a s', At p s → M.step s a s' → ∃ p', next p = some p' ∧ At p' s'
  moves : ∀ p s p', At p s → next p = some p' → ∃ a s', M.step s a s'

/-- **Paths are followed to their end**: if places come closer to the end, a run takes no more
steps than the first place is away from it, and a run that cannot go on has come to it. -/
theorem FollowsPath.run {σ : Type u} {α : Type v} {π : Type w} {M : TransitionSystem σ α}
    {P : σ → α → Prop} {At : π → σ → Prop} {first : π} {next : π → Option π}
    (hpath : FollowsPath M At first next) (dist : π → ℕ)
    (hcloser : ∀ p p', next p = some p' → dist p' < dist p) {as : List α} {s : σ}
    (hrun : M.Run P as s) :
    ∃ p, At p s ∧ as.length + dist p ≤ dist first ∧
      ((∀ a s', ¬M.step s a s') → next p = none) := by
  -- each step uses up at least one of the steps that the place is away from the end
  have hplace : ∃ p, At p s ∧ as.length + dist p ≤ dist first := by
    induction hrun with
    | start h => exact ⟨first, hpath.init _ h, by simp⟩
    | step _ _ hstep ih =>
      obtain ⟨p, hat, hle⟩ := ih
      obtain ⟨p', hnext, hat'⟩ := hpath.step _ _ _ _ hat hstep
      have hlt := hcloser p p' hnext
      refine ⟨p', hat', ?_⟩
      rw [List.length_append, List.length_singleton]
      omega
  obtain ⟨p, hat, hle⟩ := hplace
  refine ⟨p, hat, hle, fun hstuck => ?_⟩
  cases hnext : next p with
  | none => rfl
  | some p' =>
    obtain ⟨a, s', hstep⟩ := hpath.moves p s p' hat hnext
    exact absurd hstep (hstuck a s')

/-! ## Simulations -/

/-- A forward simulation of `M`, run under `P`, by `N`. A label that `obs` maps to `b` is
answered by one `b`-step of `N`, a label that `obs` hides by no step at all. -/
structure Simulation {σ : Type u} {α : Type v} {τ : Type w} {β : Type x}
    (M : TransitionSystem σ α) (P : σ → α → Prop) (N : TransitionSystem τ β)
    (obs : α → Option β) (R : σ → τ → Prop) : Prop where
  init : ∀ s, M.init s → ∃ t, N.init t ∧ R s t
  hidden : ∀ s a s' t, R s t → P s a → M.step s a s' → obs a = none → R s' t
  visible : ∀ s a s' t b, R s t → P s a → M.step s a s' → obs a = some b →
    ∃ t', N.step t b t' ∧ R s' t'

/-- A simulation carries whole runs: what `obs` lets through of a run of `M` is a run
of `N`, and the two end in related states. -/
theorem Simulation.run {σ : Type u} {α : Type v} {τ : Type w} {β : Type x}
    {M : TransitionSystem σ α} {P : σ → α → Prop} {N : TransitionSystem τ β}
    {obs : α → Option β} {R : σ → τ → Prop} (hsim : Simulation M P N obs R)
    {as : List α} {s : σ} (hrun : M.Run P as s) :
    ∃ t, N.Run (fun _ _ => True) (as.filterMap obs) t ∧ R s t := by
  induction hrun with
  | start h =>
    obtain ⟨t, ht, hR⟩ := hsim.init _ h
    exact ⟨t, .start ht, hR⟩
  | @step as s s' a _ hcond hs ih =>
    obtain ⟨t, ht, hR⟩ := ih
    rw [List.filterMap_append]
    -- a hidden label adds nothing to what is let through, any other one label
    cases hobs : obs a with
    | none =>
      refine ⟨t, ?_, hsim.hidden _ _ _ _ hR hcond hs hobs⟩
      simpa [hobs] using ht
    | some b =>
      obtain ⟨t', hstep, hR'⟩ := hsim.visible _ _ _ _ _ hR hcond hs hobs
      refine ⟨t', ?_, hR'⟩
      simpa [hobs] using ht.step trivial hstep

/-- A forward simulation of `M`, run under `P`, by `N`, as far as an observer can tell, who
sees `obs a` of the labels of `M` and `obs' e` of those of `N`. A step is answered by one
step that looks the same, or, if there is nothing to see, by none. -/
structure ForwardSimulation {σ : Type u} {α : Type v} {τ : Type w} {β : Type x} {γ : Type*}
    (M : TransitionSystem σ α) (P : σ → α → Prop) (N : TransitionSystem τ β)
    (obs : α → Option γ) (obs' : β → Option γ) (R : σ → τ → Prop) : Prop where
  init : ∀ s, M.init s → ∃ t, N.init t ∧ R s t
  step : ∀ s a s' t, R s t → P s a → M.step s a s' →
    (obs a = none ∧ R s' t) ∨ ∃ e t', N.step t e t' ∧ obs' e = obs a ∧ R s' t'

/-- Every run has a counterpart that looks the same and ends in a related state. -/
theorem ForwardSimulation.run {σ : Type u} {α : Type v} {τ : Type w} {β : Type x} {γ : Type*}
    {M : TransitionSystem σ α} {P : σ → α → Prop} {N : TransitionSystem τ β}
    {obs : α → Option γ} {obs' : β → Option γ} {R : σ → τ → Prop}
    (hsim : ForwardSimulation M P N obs obs' R) {as : List α} {s : σ} (hrun : M.Run P as s) :
    ∃ es t, N.Run (fun _ _ => True) es t ∧ es.filterMap obs' = as.filterMap obs ∧ R s t := by
  induction hrun with
  | start h =>
    obtain ⟨t, ht, hR⟩ := hsim.init _ h
    exact ⟨[], t, .start ht, rfl, hR⟩
  | @step as s s' a _ hcond hs ih =>
    obtain ⟨es, t, hes, hlooks, hR⟩ := ih
    rcases hsim.step _ _ _ _ hR hcond hs with ⟨hnone, hR'⟩ | ⟨e, t', hstep, hsame, hR'⟩
    · exact ⟨es, t, hes, by simp [hlooks, hnone], hR'⟩
    · refine ⟨es ++ [e], t', hes.next e trivial hstep, ?_, hR'⟩
      rw [List.filterMap_append, List.filterMap_append, hlooks]
      simp only [List.filterMap_cons, hsame, List.filterMap_nil]

end Poski.Lib
