import Mathlib.Algebra.Order.BigOperators.Group.Finset
import Mathlib.Data.Set.Card
import Poski.Lib.TransitionSystem

/-!
# Counting the Members of a Population

Any number of parties, each in some place, take turns to move. Two ways to count those
in places of interest:

- `AtLeast n p` : at least `n` parties satisfy `p`; the population may be infinite
- `population p f` : the number of parties `i` with `p (f i)`, where they are finitely many

Main results: `population_update` for one move, `population_of_run` for whole runs.
-/

namespace Poski.Lib

universe u v

section AtLeast

variable {ι : Type u} {p q : ι → Prop} {m n : ℕ}

/-- At least `n` parties satisfy `p`. -/
def AtLeast (n : ℕ) (p : ι → Prop) : Prop :=
  ∃ F : Finset ι, n ≤ F.card ∧ ∀ i ∈ F, p i

theorem AtLeast.zero (p : ι → Prop) : AtLeast 0 p :=
  ⟨∅, Nat.zero_le _, by simp⟩

theorem AtLeast.mono (h : AtLeast n p) (hmn : m ≤ n) (hpq : ∀ i, p i → q i) : AtLeast m q := by
  obtain ⟨F, hcard, hF⟩ := h
  exact ⟨F, hmn.trans hcard, fun i hi => hpq i (hF i hi)⟩

/-- One more party has come to satisfy the predicate. -/
theorem AtLeast.insert [DecidableEq ι] (h : AtLeast n p) (hpq : ∀ i, p i → q i) {a : ι}
    (ha : ¬p a) (hqa : q a) : AtLeast (n + 1) q := by
  obtain ⟨F, hcard, hF⟩ := h
  have hnotin : a ∉ F := fun hmem => ha (hF a hmem)
  refine ⟨Insert.insert a F, ?_, ?_⟩
  · rw [Finset.card_insert_of_notMem hnotin]
    omega
  · intro i hi
    rcases Finset.mem_insert.mp hi with rfl | hi
    · exact hqa
    · exact hpq i (hF i hi)

/-- At most one party has ceased to satisfy the predicate. -/
theorem AtLeast.erase [DecidableEq ι] (h : AtLeast n p) (a : ι)
    (hpq : ∀ i, i ≠ a → p i → q i) : AtLeast (n - 1) q := by
  obtain ⟨F, hcard, hF⟩ := h
  refine ⟨F.erase a, ?_, ?_⟩
  · have := Finset.pred_card_le_card_erase (s := F) (a := a)
    omega
  · intro i hi
    exact hpq i (Finset.ne_of_mem_erase hi) (hF i (Finset.mem_of_mem_erase hi))

theorem AtLeast.exists (h : AtLeast n p) (hn : 0 < n) : ∃ i, p i := by
  obtain ⟨F, hcard, hF⟩ := h
  obtain ⟨i, hi⟩ := Finset.card_pos.mp (hn.trans_le hcard)
  exact ⟨i, hF i hi⟩

end AtLeast

section Population

variable {ι : Type u} {α : Type v} {p : α → Bool} {f : ι → α}

/-- The parties in a place that `p` accepts. -/
def members (p : α → Bool) (f : ι → α) : Set ι := {i | p (f i) = true}

/-- How many members there are, where there are finitely many. -/
noncomputable def population (p : α → Bool) (f : ι → α) : ℕ := (members p f).ncard

theorem population_eq_zero (hfin : (members p f).Finite) :
    population p f = 0 ↔ ∀ i, p (f i) = false := by
  rw [population, Set.ncard_eq_zero hfin, Set.eq_empty_iff_forall_notMem]
  simp [members]

/-- Where the parties are finitely many, they can be counted one by one. -/
theorem population_eq_card [Fintype ι] :
    population p f = (Finset.univ.filter fun i => p (f i) = true).card := by
  rw [population, ← Set.ncard_coe_finset]
  simp [members]

/-- The population, with party `i` counted by itself. -/
theorem population_eq_add (hfin : (members p f).Finite) (i : ι) :
    population p f = (p (f i)).toNat + (members p f \ {i}).ncard := by
  cases hi : p (f i) with
  | false =>
    have hnot : i ∉ members p f := by simp [members, hi]
    rw [Set.sdiff_singleton_eq_self hnot]
    simp [population]
  | true =>
    have hmem : i ∈ members p f := hi
    have hcard := Set.ncard_sdiff_singleton_add_one hmem hfin
    simp only [population, Bool.toNat_true]
    omega

variable [DecidableEq ι]

theorem members_update_diff (i : ι) (a : α) :
    members p (Function.update f i a) \ {i} = members p f \ {i} := by
  ext j
  rcases eq_or_ne j i with rfl | hj
  · simp
  · simp [members, hj]

theorem finite_members_update (hfin : (members p f).Finite) (i : ι) (a : α) :
    (members p (Function.update f i a)).Finite := by
  apply (hfin.insert i).subset
  intro j hj
  rcases eq_or_ne j i with rfl | hne
  · exact Set.mem_insert _ _
  · rw [members, Set.mem_ofPred_eq, Function.update_of_ne hne] at hj
    exact Set.mem_insert_of_mem _ hj

/-- **One party moves**: the population changes by what it leaves and what it enters. -/
theorem population_update (hfin : (members p f).Finite) (i : ι) (a : α) :
    population p (Function.update f i a) + (p (f i)).toNat =
      population p f + (p a).toNat := by
  -- the other parties, which do not move, are counted on both sides
  rw [population_eq_add hfin i, population_eq_add (finite_members_update hfin i a) i,
    members_update_diff, Function.update_self]
  omega

/-- **Flow**: when every step that enters some places, or leaves them, is counted, then as often
as they were entered they were left, but for the parties that are still inside. -/
theorem population_of_run {σ : Type*} {β : Type*} {M : TransitionSystem σ β} {P : σ → β → Prop}
    (pc : σ → ι → α) (actor : β → ι) (enters leaves : β → Bool)
    (hinit : ∀ s, M.init s → ∀ i, p (pc s i) = false)
    (hothers : ∀ s b s', M.step s b s' → ∀ i ≠ actor b, pc s' i = pc s i)
    (hactor : ∀ s b s', M.ReachableWhen P s → P s b → M.step s b s' →
      (p (pc s (actor b))).toNat + (enters b).toNat =
        (leaves b).toNat + (p (pc s' (actor b))).toNat)
    {bs : List β} {s : σ} (hrun : M.Run P bs s) :
    (members p (pc s)).Finite ∧ bs.countP enters = bs.countP leaves + population p (pc s) := by
  induction hrun with
  | @start s h =>
    have hnone : members p (pc s) = ∅ := by
      ext i
      simp [members, hinit s h i]
    rw [population, hnone]
    simp
  | @step bs s s' b hrun hcond hstep ih =>
    obtain ⟨hfin, hcount⟩ := ih
    have hpc : pc s' = Function.update (pc s) (actor b) (pc s' (actor b)) := by
      funext i
      rcases eq_or_ne i (actor b) with rfl | hi
      · rw [Function.update_self]
      · rw [Function.update_of_ne hi, hothers s b s' hstep i hi]
    have hmoved := population_update hfin (actor b) (pc s' (actor b))
    have hflow := hactor s b s' ⟨bs, hrun⟩ hcond hstep
    rw [← hpc] at hmoved
    refine ⟨?_, ?_⟩
    · rw [hpc]
      exact finite_members_update hfin _ _
    · have hone (f : β → Bool) : [b].countP f = (f b).toNat := by
        cases h : f b <;> simp [h]
      rw [List.countP_append, List.countP_append, hcount, hone, hone]
      omega

/-- Parties that are ranked by their places: the sum of the ranks falls if one of them moves
to a place of lower rank. -/
theorem sum_rank_update_lt (rank : α → ℕ) {F : Finset ι} {i : ι} {a : α} (hi : i ∈ F)
    (hlt : rank a < rank (f i)) :
    ∑ j ∈ F, rank (Function.update f i a j) < ∑ j ∈ F, rank (f j) := by
  apply Finset.sum_lt_sum
  · intro j _
    rcases eq_or_ne j i with rfl | hne
    · rw [Function.update_self]
      exact Nat.le_of_lt hlt
    · rw [Function.update_of_ne hne]
  · exact ⟨i, hi, by rwa [Function.update_self]⟩

/-- One party moves to a place where it is worth less, and pays for what the others gain. -/
theorem sum_lt_of_pays {F : Finset ι} {g g' : ι → ℕ} {i : ι} (hi : i ∈ F) (gain : ℕ)
    (hothers : ∀ j ∈ F, j ≠ i → g' j ≤ g j + gain) (hpays : g' i + gain * F.card < g i) :
    ∑ j ∈ F, g' j < ∑ j ∈ F, g j := by
  have hrest : ∑ j ∈ F.erase i, g' j ≤ ∑ j ∈ F.erase i, g j + gain * (F.erase i).card := by
    calc ∑ j ∈ F.erase i, g' j
        ≤ ∑ j ∈ F.erase i, (g j + gain) := Finset.sum_le_sum fun j hj =>
          hothers j (Finset.mem_of_mem_erase hj) (Finset.ne_of_mem_erase hj)
      _ = ∑ j ∈ F.erase i, g j + gain * (F.erase i).card := by
          rw [Finset.sum_add_distrib, Finset.sum_const_nat fun _ _ => rfl, Nat.mul_comm]
  have hcard : gain * (F.erase i).card ≤ gain * F.card :=
    Nat.mul_le_mul_left gain (Finset.card_le_card (Finset.erase_subset i F))
  rw [← Finset.add_sum_erase F g' hi, ← Finset.add_sum_erase F g hi]
  omega

end Population

end Poski.Lib
