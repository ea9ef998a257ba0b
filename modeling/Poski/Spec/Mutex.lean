import Poski.Lib.Linearizability
import Poski.Lib.RecLock
import Poski.Osal.Types

/-!
# Recursive Mutexes

What a mutex is for: the tasks that have locked it more often than they have unlocked it are
never two. An operation may be refused for any reason, but a task is never told that it has
locked a mutex that another task owns.

- `recursiveMutex` : the object, used by one task after the other
- `TellsLocked` : a task can tell from its own calls and replies that it owns the mutex
- `mutual_exclusion` : in a linearizable history at most one task can tell so
-/

namespace Poski.Spec

open Lib TransitionSystem

universe u

inductive MutexCall where
  | lock
  | unlock
  deriving DecidableEq, Repr

/-- An unlock that has not been granted. -/
def refused : MutexCall × PosError → Bool
  | (.unlock, err) => err ≠ .ok
  | (.lock, _) => false

variable {ι : Type u} [DecidableEq ι]

/-- One operation, granted or refused. -/
inductive MutexStep (limit : ℕ) :
    RecLock ι → Effect ι MutexCall PosError → RecLock ι → Prop where
  | lock {l l' : RecLock ι} {t : ι} (hlock : l.lock limit t = some l') :
      MutexStep limit l ⟨t, .lock, .ok⟩ l'
  | lockRefused {l : RecLock ι} {t : ι} {err : PosError} (herr : err ≠ .ok) :
      MutexStep limit l ⟨t, .lock, err⟩ l
  | unlock {l l' : RecLock ι} {t : ι} (hunlock : l.unlock t = some l') :
      MutexStep limit l ⟨t, .unlock, .ok⟩ l'
  | unlockRefused {l : RecLock ι} {t : ι} {err : PosError} (hunlock : l.unlock t = none)
      (herr : err ≠ .ok) : MutexStep limit l ⟨t, .unlock, err⟩ l

/-- A mutex that starts as `l₀`. -/
def recursiveMutex (limit : ℕ) (l₀ : RecLock ι) :
    TransitionSystem (RecLock ι) (Effect ι MutexCall PosError) where
  init l := l = l₀
  step := MutexStep limit

/-! ## Locks and unlocks -/

/-- How often `t` has to unlock the mutex before others can lock it. -/
def lockedBy (l : RecLock ι) (t : ι) : ℕ := if l.owner = some t then l.count else 0

theorem lockedBy_lock {limit : ℕ} {l l' : RecLock ι} {u : ι} (hlock : l.lock limit u = some l')
    (t : ι) : lockedBy l' t = lockedBy l t + if u = t then 1 else 0 := by
  obtain ⟨hwho, -, rfl⟩ := RecLock.lock_eq_some.mp hlock
  by_cases hu : u = t
  · subst hu
    rcases hwho with rfl | howner <;> simp [lockedBy, *]
  · rcases hwho with rfl | howner <;> simp [lockedBy, *]

theorem lockedBy_unlock {l l' : RecLock ι} {u : ι} (hunlock : l.unlock u = some l') (t : ι) :
    lockedBy l t = lockedBy l' t + if u = t then 1 else 0 := by
  obtain ⟨n, rfl, hcount, hafter⟩ := RecLock.unlock_eq_some.mp hunlock
  by_cases hu : u = t
  · subst hu
    rcases hafter with rfl | howner <;> simp_all [lockedBy]
  · rcases hafter with rfl | howner <;> simp [lockedBy, *]

/-- What the effects of one task's operations have done. -/
structure Balanced (l₀ : RecLock ι) (t : ι) (own : List (Effect ι MutexCall PosError))
    (l : RecLock ι) : Prop where
  locks : lockedBy l₀ t + (own.map Effect.op).count (.lock, .ok) =
    (own.map Effect.op).count (.unlock, .ok) + lockedBy l t
  unlocks : (own.map Effect.call).count .unlock =
    (own.map Effect.op).count (.unlock, .ok) + (own.map Effect.op).countP refused

variable {limit : ℕ} {l₀ l : RecLock ι}

theorem balanced_of_run {P : RecLock ι → Effect ι MutexCall PosError → Prop}
    {fs : List (Effect ι MutexCall PosError)}
    (hrun : (recursiveMutex limit l₀).Run P fs l) (t : ι) : Balanced l₀ t (effectsOf t fs) l := by
  refine hrun.invariant (I := fun fs l => Balanced l₀ t (effectsOf t fs) l) ?_ ?_
  · rintro l rfl
    exact ⟨by simp [effectsOf], rfl⟩
  · intro fs l f l' hbal _ hstep
    obtain ⟨hlocks, hunlocks⟩ := hbal
    rw [effectsOf_snoc]
    cases hstep with
    | lock hlock =>
      have hcount := lockedBy_lock hlock t
      split
      · refine ⟨?_, by simpa [refused, Effect.op] using hunlocks⟩
        simp_all [Effect.op]
        omega
      · exact ⟨by simp_all, hunlocks⟩
    | lockRefused herr =>
      split
      · exact ⟨by simpa [herr, Effect.op] using hlocks,
          by simpa [refused, Effect.op] using hunlocks⟩
      · exact ⟨hlocks, hunlocks⟩
    | unlock hunlock =>
      have hcount := lockedBy_unlock hunlock t
      split
      · refine ⟨?_, ?_⟩
        · simp_all [Effect.op]
          omega
        · simp [refused, Effect.op, hunlocks]
          omega
      · exact ⟨by simp_all, hunlocks⟩
    | unlockRefused hunlock herr =>
      split
      · refine ⟨by simpa [herr, Effect.op] using hlocks, ?_⟩
        simp [refused, Effect.op, herr, hunlocks]
        omega
      · exact ⟨hlocks, hunlocks⟩

/-! ## Mutual exclusion -/

/-- As far as `t` can tell, it owns the mutex: with the locks that it started with, it has been
granted more locks than it has called unlocks, where refused ones do not count. -/
def TellsLocked (l₀ : RecLock ι) (t : ι) (history : List (HistoryEvent ι MutexCall PosError)) :
    Prop :=
  (callsOf t history).count .unlock <
    lockedBy l₀ t + (completedBy t history).count (.lock, .ok) +
      (completedBy t history).countP refused

instance (l₀ : RecLock ι) (t : ι) (history : List (HistoryEvent ι MutexCall PosError)) :
    Decidable (TellsLocked l₀ t history) :=
  inferInstanceAs (Decidable (_ < _))

variable {history : List (HistoryEvent ι MutexCall PosError)}
  {es : List (ObjEvent ι MutexCall PosError)}

/-- A task that can tell that it owns the mutex does. -/
theorem TellsLocked.owner {t : ι} (htells : TellsLocked l₀ t history)
    (hlin : Linearization (recursiveMutex limit l₀) history es l) : l.owner = some t := by
  obtain ⟨p, hcalls, -⟩ := hlin.of_task t
  obtain ⟨hlocks, hunlocks⟩ := balanced_of_run hlin.effects t
  -- what has been replied to has taken effect
  have hcompleted := (hlin.completed_prefix t).sublist
  have hgranted := hcompleted.count_le (.lock, .ok)
  have hrefused := hcompleted.countP_le (p := refused)
  unfold TellsLocked at htells
  rw [hcalls, List.count_append, hunlocks] at htells
  have hpos : 0 < lockedBy l t := by omega
  by_contra hother
  rw [lockedBy, if_neg hother] at hpos
  exact absurd hpos (Nat.lt_irrefl 0)

/-- **Mutual exclusion**, as the tasks can tell: no two of them own the mutex. -/
theorem mutual_exclusion {t u : ι}
    (hlin : Linearization (recursiveMutex limit l₀) history es l)
    (ht : TellsLocked l₀ t history) (hu : TellsLocked l₀ u history) : t = u := by
  have htu := (ht.owner hlin).symm.trans (hu.owner hlin)
  exact Option.some_inj.mp htu

end Poski.Spec
