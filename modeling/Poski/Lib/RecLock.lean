import Mathlib.Data.Nat.Notation
import Mathlib.Data.Option.Basic

/-!
# Recursive Locks

A recursive lock is free or held by one owner, who may lock it again. It is represented
so that a free lock with a positive count, or a held one with count zero, cannot be
written down. `lock` is refused to everybody but the owner of a held lock, and at the
`limit` of the count; `unlock` is refused to everybody but the owner.
-/

namespace Poski.Lib

universe u

/-- A recursive lock; `held t n` has been locked by `t` once and then `n` times more. -/
inductive RecLock (ι : Type u) where
  | free
  | held (owner : ι) (again : ℕ)
  deriving DecidableEq

namespace RecLock

variable {ι : Type u}

def owner : RecLock ι → Option ι
  | free => none
  | held t _ => some t

/-- How often the lock has to be unlocked to be free. -/
def count : RecLock ι → ℕ
  | free => 0
  | held _ n => n + 1

@[simp] theorem owner_free : (free : RecLock ι).owner = none := rfl

@[simp] theorem owner_held (t : ι) (n : ℕ) : (held t n).owner = some t := rfl

@[simp] theorem count_free : (free : RecLock ι).count = 0 := rfl

@[simp] theorem count_held (t : ι) (n : ℕ) : (held t n).count = n + 1 := rfl

theorem count_eq_zero {l : RecLock ι} : l.count = 0 ↔ l = free := by
  cases l <;> simp

/-- The lock after its owner has unlocked it once. -/
def release : RecLock ι → RecLock ι
  | held t (n + 1) => held t n
  | _ => free

variable [DecidableEq ι]

def lock (limit : ℕ) (l : RecLock ι) (t : ι) : Option (RecLock ι) :=
  if (l = free ∨ l.owner = some t) ∧ l.count < limit then some (held t l.count) else none

def unlock (l : RecLock ι) (t : ι) : Option (RecLock ι) :=
  if l.owner = some t then some l.release else none

/-- What a granted `lock` does. -/
theorem lock_eq_some {limit : ℕ} {l l' : RecLock ι} {t : ι} :
    l.lock limit t = some l' ↔
      (l = free ∨ l.owner = some t) ∧ l.count < limit ∧ l' = held t l.count := by
  rw [lock, Option.ite_none_right_eq_some, Option.some_inj, and_assoc, eq_comm (a := l')]

/-- What a granted `unlock` does. -/
theorem unlock_eq_some {l l' : RecLock ι} {t : ι} :
    l.unlock t = some l' ↔ ∃ n, l = held t n ∧ l'.count = n ∧ (l' = free ∨ l'.owner = some t) := by
  rw [unlock, Option.ite_none_right_eq_some, Option.some_inj]
  constructor
  · rintro ⟨howner, rfl⟩
    match l, howner with
    | held _ 0, rfl => exact ⟨0, rfl, rfl, .inl rfl⟩
    | held _ (n + 1), rfl => exact ⟨n + 1, rfl, rfl, .inr rfl⟩
  · rintro ⟨n, rfl, hcount, howner⟩
    refine ⟨rfl, ?_⟩
    match n, l', hcount, howner with
    | 0, free, _, _ => rfl
    | n + 1, held _ m, hcount, .inr rfl =>
      have : n = m := by simpa using hcount.symm
      rw [this]
      rfl

/-- Nobody but the one who locks comes to own the lock. -/
theorem owner_lock_of_ne {limit : ℕ} {l l' : RecLock ι} {t u : ι} (h : l.lock limit t = some l')
    (hu : u ≠ t) : l'.owner = some u ↔ l.owner = some u := by
  obtain ⟨rfl | howner, _, rfl⟩ := lock_eq_some.mp h
  · simp [hu.symm]
  · rw [howner, owner_held]

/-- Nobody but the one who unlocks ceases to own the lock. -/
theorem owner_unlock_of_ne {l l' : RecLock ι} {t u : ι} (h : l.unlock t = some l')
    (hu : u ≠ t) : l'.owner = some u ↔ l.owner = some u := by
  obtain ⟨n, rfl, _, rfl | howner⟩ := unlock_eq_some.mp h
  · simp [hu.symm]
  · rw [howner, owner_held]

/-- Only the owner can unlock. -/
theorem unlock_eq_none {l : RecLock ι} {t : ι} : l.unlock t = none ↔ l.owner ≠ some t := by
  simp [unlock]

end RecLock

end Poski.Lib
