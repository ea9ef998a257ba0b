import Poski.Osal.HandleMutex
import Poski.RtThread.Blocking

/-!
# The RT-Thread Mutex

`os_mutex.c` of the RT-Thread port, each call executed as a whole. Both a lock and an unlock that
are refused are a `POS_BAD_MUTEX`. The lock does not assert that it is called by a task.
-/

namespace Poski.RtThread.Mutex

variable {M ι : Type} (kernel : MutexKernel M ι ℤ RtErr) (b : Build)

/-- `pos_mutex_init`. -/
def posMutexInit (mu : Option (HandleMutex M)) :
    Except Halt (Option (HandleMutex M) × PosError) :=
  initHandle b kernel.create mu

/-- `pos_mutex_lock`, with `rt_mutex_take`. -/
def posMutexLock (mu : Option (HandleMutex M)) (t : ι) (timeout : UInt32) :
    Except Halt (Option (HandleMutex M) × PosError) :=
  withHandle b mu fun handle => do
    let (handle, ret) ← kernel.take handle t timeout.toInt32.toInt
    return (handle, if ret = RT_EOK then .ok else .badMutex)

/-- `pos_mutex_unlock`, with `rt_mutex_release`. -/
def posMutexUnlock (inIsr : Bool) (mu : Option (HandleMutex M)) (t : ι) :
    Except Halt (Option (HandleMutex M) × PosError) := do
  b.assert !inIsr
  withHandle b mu fun handle =>
    let (handle, ret) := kernel.give handle t
    .ok (handle, if ret ≠ RT_EOK then .badMutex else .ok)

variable {kernel b} {m m' : M} {t : ι} {ret : RtErr}

/-- What the calls do with a mutex that has been created. -/
theorem posMutexLock_of_take {timeout : UInt32}
    (h : kernel.take m t timeout.toInt32.toInt = .ok (m', ret)) :
    posMutexLock kernel b (some { handle := some m }) t timeout =
      .ok (some { handle := some m' }, if ret = RT_EOK then .ok else .badMutex) := by
  refine withHandle_of_call ?_
  simp [h, bind, Except.bind, pure, Except.pure]

theorem posMutexUnlock_of_give (h : kernel.give m t = (m', ret)) :
    posMutexUnlock kernel b false (some { handle := some m }) t =
      .ok (some { handle := some m' }, if ret ≠ RT_EOK then .badMutex else .ok) := by
  simp [posMutexUnlock, withHandle, h, bind, Except.bind, pure, Except.pure]

/-- `pos_mutex_lock` is the function of `Blocking`, up to its native call. -/
theorem posMutexLock_split (timeout : UInt32) :
    ∃ call, RtThread.posMutexLock b .inited timeout = .ok (.inr call) ∧
      call.ticks = timeout.toInt32.toInt ∧
      posMutexLock kernel b (some { handle := some m }) t timeout = (do
        let (m, ret) ← kernel.take m t call.ticks
        let err ← call.result ret
        return (some { handle := some m }, err)) := by
  refine ⟨_, blockOn_inited b _ _, rfl, ?_⟩
  cases htake : kernel.take m t timeout.toInt32.toInt <;>
    simp [posMutexLock, withHandle, htake, bind, Except.bind, pure, Except.pure]

end Poski.RtThread.Mutex
