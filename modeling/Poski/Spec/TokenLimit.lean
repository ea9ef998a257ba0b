import Mathlib.Algebra.BigOperators.Group.Finset.Piecewise
import Mathlib.Algebra.Order.BigOperators.Group.Finset
import Poski.Lib.Linearizability
import Poski.Spec.Semaphore

/-!
# Semaphores as Limits

What a semaphore that starts with `n` tokens is for: never do more than `n` tasks hold a token.
This needs the tasks' good will, since anybody can give a token. As long as no task gives what
it has not taken, not more than `n` of them can tell that they hold one.

- `countingSemaphore` : the object, used by one task after the other
- `TellsHolding` : a task can tell from its own calls and replies that it holds a token
- `card_holding_le` : in a linearizable history at most `n` tasks can tell so
-/

namespace Poski.Spec

open Lib TransitionSystem

universe u

variable {ι : Type u}

/-- A give that has not been granted. -/
def refusedGive : SemCall × PosError → Bool
  | (.give, err) => err ≠ .ok
  | (.take, _) => false

/-- One operation, granted or refused. A take may be refused for any reason. -/
inductive TokenStep (limit : ℕ) : ℕ → Effect ι SemCall PosError → ℕ → Prop where
  | take {n : ℕ} {t : ι} : TokenStep limit (n + 1) ⟨t, .take, .ok⟩ n
  | takeRefused {n : ℕ} {t : ι} {err : PosError} (herr : err ≠ .ok) :
      TokenStep limit n ⟨t, .take, err⟩ n
  | give {n : ℕ} {t : ι} (hroom : n < limit) : TokenStep limit n ⟨t, .give, .ok⟩ (n + 1)
  | giveRefused {n : ℕ} {t : ι} {err : PosError} (hfull : limit ≤ n) (herr : err ≠ .ok) :
      TokenStep limit n ⟨t, .give, err⟩ n

/-- A semaphore that starts with `n₀` tokens. -/
def countingSemaphore (ι : Type u) (limit n₀ : ℕ) :
    TransitionSystem ℕ (Effect ι SemCall PosError) where
  init n := n = n₀
  step := TokenStep limit

/-! ## Takes and gives -/

/-- How often tokens have been taken, and given. -/
def takes (fs : List (Effect ι SemCall PosError)) : ℕ := (fs.map Effect.op).count (.take, .ok)

def gives (fs : List (Effect ι SemCall PosError)) : ℕ := (fs.map Effect.op).count (.give, .ok)

variable {limit n₀ n : ℕ}

/-- No token is lost. -/
theorem tokens_of_run {P : ℕ → Effect ι SemCall PosError → Prop}
    {fs : List (Effect ι SemCall PosError)} (hrun : (countingSemaphore ι limit n₀).Run P fs n) :
    n₀ + gives fs = takes fs + n := by
  refine hrun.invariant (I := fun fs n => n₀ + gives fs = takes fs + n) ?_ ?_
  · intro n hinit
    rw [show n = n₀ from hinit]
    exact Nat.add_comm n₀ 0
  · intro fs n f n' hbal _ hstep
    unfold gives takes at hbal ⊢
    rw [List.map_append, List.count_append, List.count_append]
    cases hstep with
    | take =>
      simp [Effect.op]
      omega
    | takeRefused herr => simpa [Effect.op, herr] using hbal
    | give hroom =>
      simp [Effect.op]
      omega
    | giveRefused hfull herr => simpa [Effect.op, herr] using hbal

/-- Every give is granted or refused. -/
theorem count_give (fs : List (Effect ι SemCall PosError)) :
    (fs.map Effect.call).count .give = gives fs + (fs.map Effect.op).countP refusedGive := by
  unfold gives
  induction fs with
  | nil => rfl
  | cons f fs ih =>
    obtain ⟨t, c, err⟩ := f
    simp only [List.map_cons, List.count_cons, List.countP_cons, Effect.op, ih]
    cases c with
    | take => simp [refusedGive]
    | give =>
      by_cases herr : err = .ok
      · simp [refusedGive, herr]
        omega
      · simp [refusedGive, herr]
        omega

variable [DecidableEq ι]

/-- What happens is what the tasks of `us` do. -/
theorem countP_op_eq_sum (p : SemCall × PosError → Bool) {us : Finset ι}
    {fs : List (Effect ι SemCall PosError)} (hus : ∀ f ∈ fs, f.task ∈ us) :
    (fs.map Effect.op).countP p = ∑ t ∈ us, ((effectsOf t fs).map Effect.op).countP p := by
  induction fs with
  | nil => simp [effectsOf]
  | cons f fs ih =>
    have hcons : ∀ t, ((effectsOf t (f :: fs)).map Effect.op).countP p =
        ((effectsOf t fs).map Effect.op).countP p +
          if f.task = t then (if p f.op then 1 else 0) else 0 := by
      intro t
      by_cases hf : f.task = t
      · simp [effectsOf, hf, List.countP_cons]
      · simp [effectsOf, hf]
    rw [List.map_cons, List.countP_cons, ih fun g hg => hus g (List.mem_cons_of_mem f hg)]
    simp only [hcons, Finset.sum_add_distrib, Finset.sum_ite_eq, hus f List.mem_cons_self, if_true]

/-! ## Holding a token -/

/-- As far as `t` can tell, it holds a token: it has been granted more takes than it has called
gives, where refused ones do not count. -/
def TellsHolding (t : ι) (history : List (HistoryEvent ι SemCall PosError)) : Prop :=
  (callsOf t history).count .give <
    (completedBy t history).count (.take, .ok) + (completedBy t history).countP refusedGive

instance (t : ι) (history : List (HistoryEvent ι SemCall PosError)) :
    Decidable (TellsHolding t history) :=
  inferInstanceAs (Decidable (_ < _))

/-- `t` has given no more than it has been granted. -/
def GivesOwn (t : ι) (history : List (HistoryEvent ι SemCall PosError)) : Prop :=
  (callsOf t history).count .give ≤
    (completedBy t history).count (.take, .ok) + (completedBy t history).countP refusedGive

instance (t : ι) (history : List (HistoryEvent ι SemCall PosError)) :
    Decidable (GivesOwn t history) :=
  inferInstanceAs (Decidable (_ ≤ _))

variable {history : List (HistoryEvent ι SemCall PosError)}
  {es : List (ObjEvent ι SemCall PosError)}

/-- What a task can tell of its gives and takes, and what they have done. -/
theorem gives_le_takes (hlin : Linearization (countingSemaphore ι limit n₀) history es n)
    (t : ι) :
    gives (effectsOf t (es.filterMap ObjEvent.takesEffect)) +
        ((completedBy t history).count (.take, .ok) +
          (completedBy t history).countP refusedGive) ≤
      takes (effectsOf t (es.filterMap ObjEvent.takesEffect)) +
        (callsOf t history).count .give := by
  obtain ⟨p, hcalls, -⟩ := hlin.of_task t
  -- what has been replied to has taken effect
  have hcompleted := (hlin.completed_prefix t).sublist
  have htaken := hcompleted.count_le (.take, .ok)
  have hrefused := hcompleted.countP_le (p := refusedGive)
  have hgive := count_give (effectsOf t (es.filterMap ObjEvent.takesEffect))
  rw [hcalls, List.count_append, hgive]
  unfold takes
  omega

/-- **No more tasks than tokens**: if no task has given what it has not taken, at most `n₀` tasks
can tell that they hold a token. -/
theorem card_holding_le (hlin : Linearization (countingSemaphore ι limit n₀) history es n)
    (hown : ∀ t, GivesOwn t history) {ts : Finset ι} (hts : ∀ t ∈ ts, TellsHolding t history) :
    ts.card ≤ n₀ := by
  have htokens := tokens_of_run hlin.effects
  have hle := gives_le_takes hlin
  generalize es.filterMap ObjEvent.takesEffect = fs at htokens hle
  -- all tasks that there are
  let us : Finset ι := ts ∪ (fs.map Effect.task).toFinset
  have hus : ∀ f ∈ fs, f.task ∈ us := fun f hf =>
    Finset.mem_union_right _ (List.mem_toFinset.mpr (List.mem_map_of_mem hf))
  have hgives : gives fs = ∑ t ∈ us, gives (effectsOf t fs) := countP_op_eq_sum _ hus
  have htakes : takes fs = ∑ t ∈ us, takes (effectsOf t fs) := countP_op_eq_sum _ hus
  have hcard : ts.card = ∑ t ∈ us, if t ∈ ts then 1 else 0 := by
    rw [Finset.sum_ite_mem, Finset.union_inter_cancel_left, Finset.card_eq_sum_ones]
  have hsum : gives fs + ts.card ≤ takes fs := by
    rw [hgives, htakes, hcard, ← Finset.sum_add_distrib]
    refine Finset.sum_le_sum fun t _ => ?_
    have ht := hle t
    split
    · have hmore := hts t ‹_›
      unfold TellsHolding at hmore
      omega
    · have hmore := hown t
      unfold GivesOwn at hmore
      omega
  omega

end Poski.Spec
