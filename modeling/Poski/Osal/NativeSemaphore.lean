import Poski.Lib.CountingSem
import Poski.Osal.Types

/-!
# Native Counting Semaphores

The native semaphores of FreeRTOS, RT-Thread and Zephyr are parameters. Each port has a structure
of the calls that it makes; what is relied on of those that do not wait is that they count tokens
up to a maximum (`CountsTokens`).
-/

namespace Poski

open Lib

/-- The calls `take`, which does not wait, and `give` count the tokens of a semaphore. They return
`success` if they do, a take without tokens returns a code of `empty`, and a give at `max` tokens
one of `full`. -/
structure CountsTokens {S Ret : Type} (take : S → Except Halt (S × Ret)) (give : S → S × Ret)
    (count : S → ℕ) (max : ℕ) (success : Ret) (empty full : Ret → Prop) : Prop where
  take_pos : ∀ s, 0 < count s → ∃ s', take s = .ok (s', success) ∧ count s = count s' + 1
  take_zero : ∀ s, count s = 0 →
    ∃ s' ret, take s = .ok (s', ret) ∧ empty ret ∧ count s' = 0
  give_lt : ∀ s, count s < max → ∃ s', give s = (s', success) ∧ count s' = count s + 1
  give_max : ∀ s, max ≤ count s → ∃ s' ret, give s = (s', ret) ∧ full ret ∧ count s' = count s

variable {Ret : Type} {max : ℕ}

/-- A take of a semaphore that is just a count, by a task that waits forever or not at all. -/
def countingTake (success busy : Ret) (forever : Bool) (s : CountingSem max) :
    Except Halt (CountingSem max × Ret) :=
  match s.take with
  | some s' => .ok (s', success)
  | none => if forever then .error .blocked else .ok (s, busy)

def countingGive (success refused : Ret) (s : CountingSem max) : CountingSem max × Ret :=
  match s.give with
  | some s' => (s', success)
  | none => (s, refused)

theorem countingSem_countsTokens {success busy refused : Ret} {empty full : Ret → Prop}
    (hempty : empty busy) (hfull : full refused) :
    CountsTokens (countingTake success busy false) (countingGive success refused)
      (CountingSem.count : CountingSem max → ℕ) max success empty full where
  take_pos s hpos := by
    cases htake : s.take with
    | none => exact absurd (CountingSem.take_eq_none.mp htake) (Nat.ne_of_gt hpos)
    | some s' =>
      refine ⟨s', ?_, CountingSem.take_eq_some.mp htake⟩
      rw [countingTake, htake]
  take_zero s hzero := by
    refine ⟨s, busy, ?_, hempty, hzero⟩
    rw [countingTake, CountingSem.take_eq_none.mpr hzero]
    rfl
  give_lt s hlt := by
    have hgive : s.give = some ⟨s.count + 1, hlt⟩ := CountingSem.give_eq_some.mpr rfl
    refine ⟨⟨s.count + 1, hlt⟩, ?_, rfl⟩
    rw [countingGive, hgive]
  give_max s hge := by
    have hgive : s.give = none := CountingSem.give_eq_none.mpr (Nat.le_antisymm s.count_le hge)
    refine ⟨s, refused, ?_, hfull, rfl⟩
    rw [countingGive, hgive]

end Poski
