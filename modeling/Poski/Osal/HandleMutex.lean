import Poski.Lib.RecLock
import Poski.Osal.Types

/-!
# Native Recursive Mutexes

The native mutexes of FreeRTOS, RT-Thread and Zephyr are parameters: what is relied on is that
they are recursive locks (`MutexKernel.Documented`). The former two hand out a handle of the
mutex, which `struct pos_mutex` keeps and every function of the port checks (`withHandle`).
-/

namespace Poski

open Lib

/-- The native calls on a mutex `M`, made by tasks `ι`, with a timeout `τ`. -/
structure MutexKernel (M ι τ Ret : Type) where
  create : Option M
  take : M → ι → τ → Except Halt (M × Ret)
  give : M → ι → M × Ret

/-- The documented behaviour of a mutex that is the recursive lock `lock m`. One task can lock
it `limit` times at least. A lock that may not wait for another owner is answered with a code of
`busy`, and an unlock by another task with one of `denied`. -/
structure MutexKernel.Documented {M ι τ Ret : Type} (kernel : MutexKernel M ι τ Ret)
    (lock : M → RecLock ι) (limit : ℕ) (noWait : τ) (success : Ret) (busy denied : Ret → Prop) :
    Prop where
  create : ∀ m, kernel.create = some m → lock m = .free
  take : ∀ m t timeout, lock m = .free ∨ (lock m).owner = some t → (lock m).count < limit →
    ∃ m', kernel.take m t timeout = .ok (m', success) ∧ lock m' = .held t (lock m).count
  take_busy : ∀ m t u, (lock m).owner = some u → u ≠ t →
    ∃ m' ret, kernel.take m t noWait = .ok (m', ret) ∧ busy ret ∧ lock m' = lock m
  give : ∀ m t, (lock m).owner = some t →
    ∃ m', kernel.give m t = (m', success) ∧ lock m' = (lock m).release
  give_denied : ∀ m t, (lock m).owner ≠ some t →
    ∃ m' ret, kernel.give m t = (m', ret) ∧ denied ret ∧ lock m' = lock m

/-- A kernel whose mutexes are just recursive locks. -/
def lockKernel {ι τ Ret : Type} [DecidableEq ι] [DecidableEq τ] (limit : ℕ) (forever : τ)
    (success busy denied : Ret) : MutexKernel (RecLock ι) ι τ Ret where
  create := some .free
  take l t timeout :=
    match l.lock limit t with
    | some l' => .ok (l', success)
    | none => if timeout = forever then .error .blocked else .ok (l, busy)
  give l t :=
    match l.unlock t with
    | some l' => (l', success)
    | none => (l, denied)

theorem lockKernel_documented {ι τ Ret : Type} [DecidableEq ι] [DecidableEq τ] {limit : ℕ}
    {forever noWait : τ} {success busy denied : Ret} {isBusy isDenied : Ret → Prop}
    (hnoWait : noWait ≠ forever) (hbusy : isBusy busy) (hdenied : isDenied denied) :
    (lockKernel (ι := ι) limit forever success busy denied).Documented id limit noWait success
      isBusy isDenied where
  create l h := (Option.some_inj.mp h).symm
  take l t timeout hl hcount := by
    have hlock : l.lock limit t = some (.held t l.count) := if_pos ⟨hl, hcount⟩
    exact ⟨_, by simp only [lockKernel, hlock, id], rfl⟩
  take_busy l t u howner hu := by
    have hlock : l.lock limit t = none := by
      refine if_neg fun hl => ?_
      rcases hl.1 with rfl | htaken
      · cases howner
      · exact hu (Option.some_inj.mp (howner.symm.trans htaken))
    exact ⟨l, busy, by simp only [lockKernel, hlock, if_neg hnoWait], hbusy, rfl⟩
  give l t howner := by
    have hunlock : l.unlock t = some l.release := if_pos howner
    exact ⟨l.release, by simp only [lockKernel, hunlock], rfl⟩
  give_denied l t howner := by
    have hunlock : l.unlock t = none := RecLock.unlock_eq_none.mpr howner
    exact ⟨l, denied, by simp only [lockKernel, hunlock], hdenied, rfl⟩

/-! ## Behind a handle -/

/-- `struct pos_mutex`; `none` is a null pointer, here and below. -/
structure HandleMutex (M : Type) where
  handle : Option M

variable {M ι Ret : Type} (b : Build)

/-- `pos_mutex_init`, which creates the native mutex. -/
def initHandle (create : Option M) (mu : Option (HandleMutex M)) :
    Except Halt (Option (HandleMutex M) × PosError) :=
  match mu with
  | none => .ok (none, .invalidParam)
  | some _ => do
    let mu : HandleMutex M := { handle := create }
    b.assert mu.handle.isSome
    return (some mu, if mu.handle.isSome then .ok else .badMutex)

/-- What the other functions do before they make a native call and return a code. -/
def withHandle (mu : Option (HandleMutex M)) (call : M → Except Halt (M × PosError)) :
    Except Halt (Option (HandleMutex M) × PosError) :=
  match mu with
  | none => .ok (none, .invalidParam)
  | some mu => do
    b.assert mu.handle.isSome
    match mu.handle with
    | none => .error .nullDeref
    | some handle => do
      let (handle, err) ← call handle
      return (some { handle := some handle }, err)

variable {b} {create : Option M} {m m' : M} {call : M → Except Halt (M × PosError)}
  {err : PosError}

theorem initHandle_of_create (mu : HandleMutex M) (h : create = some m) :
    initHandle b create (some mu) = .ok (some { handle := some m }, .ok) := by
  simp [initHandle, h, bind, Except.bind, pure, Except.pure]

theorem withHandle_of_call (h : call m = .ok (m', err)) :
    withHandle b (some { handle := some m }) call =
      .ok (some { handle := some m' }, err) := by
  simp [withHandle, h, bind, Except.bind, pure, Except.pure]

end Poski
