import Mathlib.Algebra.Group.Nat.Defs

/-!
# Counting Semaphores with a Maximum

A counting semaphore that refuses to be taken at zero and to be given at its maximum. The
bound is part of the type, so a count above the maximum cannot be written down.
-/

namespace Poski.Lib

/-- A counting semaphore that counts to `max` at most. -/
@[ext]
structure CountingSem (max : ℕ) where
  count : ℕ
  count_le : count ≤ max
  deriving DecidableEq

namespace CountingSem

variable {max : ℕ} {s s' : CountingSem max}

/-- A new semaphore; an initial count above the maximum is refused. -/
def new (max n : ℕ) : Option (CountingSem max) :=
  if h : n ≤ max then some ⟨n, h⟩ else none

def take (s : CountingSem max) : Option (CountingSem max) :=
  if 0 < s.count then some ⟨s.count - 1, Nat.le_trans (Nat.sub_le _ _) s.count_le⟩ else none

def give (s : CountingSem max) : Option (CountingSem max) :=
  if h : s.count < max then some ⟨s.count + 1, h⟩ else none

theorem new_of_le {n : ℕ} (h : n ≤ max) : new max n = some ⟨n, h⟩ :=
  dif_pos h

theorem new_eq_none {n : ℕ} : new max n = none ↔ max < n := by
  simp [new]

/-- What a granted `take` does. -/
theorem take_eq_some : s.take = some s' ↔ s.count = s'.count + 1 := by
  simp only [take, Option.ite_none_right_eq_some, Option.some_inj, CountingSem.ext_iff]
  omega

theorem take_eq_none : s.take = none ↔ s.count = 0 := by
  simp [take]

/-- What a granted `give` does. -/
theorem give_eq_some : s.give = some s' ↔ s'.count = s.count + 1 := by
  have hle := s'.count_le
  simp only [give, Option.dite_none_right_eq_some, Option.some_inj, CountingSem.ext_iff]
  constructor
  · rintro ⟨_, hcount⟩
    exact hcount.symm
  · intro hcount
    exact ⟨by omega, hcount.symm⟩

theorem give_eq_none : s.give = none ↔ s.count = max := by
  have hle := s.count_le
  simp only [give, dite_eq_right_iff, reduceCtorEq, imp_false]
  omega

end CountingSem

end Poski.Lib
