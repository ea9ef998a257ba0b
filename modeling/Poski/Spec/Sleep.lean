import Mathlib.Algebra.Order.BigOperators.Group.List
import Mathlib.Algebra.Order.Group.Defs
import Poski.Lib.TransitionSystem

/-!
# Sleeping in Rounds

What a sleep is for that signals may interrupt: it goes on, round by round, until the time that
was asked for has passed. Times are taken from any ordered group.

- `sleep` : the transition system of rounds
- `told_add_outstanding` : nothing gets lost between the rounds
- `le_slept_of_awake`, `slept_eq_of_awake` : who is awake has slept enough
-/

namespace Poski.Spec

open Lib

universe u

/-- One round: the time that the sleeper is told has passed, and the time that has passed. -/
structure SleepRound (α : Type u) where
  told : α
  slept : α

/-- A sleeper has some time outstanding, or is awake. -/
inductive Sleeper (α : Type u) where
  | asleep (outstanding : α)
  | awake

variable {α : Type u} [AddCommGroup α] [PartialOrder α]

def Sleeper.outstanding : Sleeper α → α
  | .asleep outstanding => outstanding
  | .awake => 0

/-- What may happen in a round, which may take longer than the sleeper is told, but not
shorter. -/
inductive SleepStep : Sleeper α → SleepRound α → Sleeper α → Prop where
  /-- a part of what is outstanding has passed -/
  | interrupted {outstanding told slept : α} (hnonneg : 0 ≤ told) (hle : told ≤ outstanding)
      (hslept : told ≤ slept) :
      SleepStep (.asleep outstanding) ⟨told, slept⟩ (.asleep (outstanding - told))
  /-- all of it has passed -/
  | whole {outstanding slept : α} (hslept : outstanding ≤ slept) :
      SleepStep (.asleep outstanding) ⟨outstanding, slept⟩ .awake

/-- A sleep of `total`. -/
def sleep (total : α) : TransitionSystem (Sleeper α) (SleepRound α) where
  init s := s = .asleep total
  step := SleepStep

variable {s s' : Sleeper α} {round : SleepRound α} {rounds : List (SleepRound α)} {total : α}
  {P : Sleeper α → SleepRound α → Prop}

/-- What the sleeper is told is taken off what is outstanding. -/
theorem SleepStep.told_add (h : SleepStep s round s') :
    round.told + s'.outstanding = s.outstanding := by
  cases h with
  | interrupted hnonneg hle hslept => exact add_sub_cancel _ _
  | whole hslept => exact add_zero _

theorem SleepStep.told_le (h : SleepStep s round s') : round.told ≤ round.slept := by
  cases h with
  | interrupted hnonneg hle hslept => exact hslept
  | whole hslept => exact hslept

/-- **Nothing gets lost**: what the sleeper has been told and what is outstanding make up the
whole time. -/
theorem told_add_outstanding (hrun : (sleep total).Run P rounds s) :
    (rounds.map SleepRound.told).sum + s.outstanding = total := by
  induction hrun with
  | start hinit =>
    rw [hinit]
    exact zero_add _
  | @step rounds s s' round hrun hcond hstep ih =>
    have htold := hstep.told_add
    rw [List.map_append, List.sum_append, List.map_singleton, List.sum_singleton, add_assoc,
      htold]
    exact ih

theorem told_le_slept (hrun : (sleep total).Run P rounds s) :
    ∀ round ∈ rounds, round.told ≤ round.slept := by
  induction hrun with
  | start hinit => exact fun round hmem => absurd hmem List.not_mem_nil
  | @step rounds s s' round hrun hcond hstep ih =>
    rw [List.forall_mem_append]
    refine ⟨ih, ?_⟩
    rw [List.forall_mem_singleton]
    exact hstep.told_le

/-- Who is awake has been told of the whole time. -/
theorem told_of_awake (hrun : (sleep total).Run P rounds .awake) :
    (rounds.map SleepRound.told).sum = total := by
  have htold := told_add_outstanding hrun
  rwa [Sleeper.outstanding, add_zero] at htold

/-- **Who is awake has slept enough.** -/
theorem le_slept_of_awake [IsOrderedAddMonoid α] (hrun : (sleep total).Run P rounds .awake) :
    total ≤ (rounds.map SleepRound.slept).sum := by
  calc total = (rounds.map SleepRound.told).sum := (told_of_awake hrun).symm
    _ ≤ (rounds.map SleepRound.slept).sum := List.sum_le_sum (told_le_slept hrun)

/-- Who has slept as long as was told, each time, has not slept longer than that. -/
theorem slept_eq_of_awake (hrun : (sleep total).Run P rounds .awake)
    (hexact : ∀ round ∈ rounds, round.slept = round.told) :
    (rounds.map SleepRound.slept).sum = total := by
  rw [List.map_congr_left hexact]
  exact told_of_awake hrun

end Poski.Spec
