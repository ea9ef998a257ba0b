import Poski.FreeRtos.Blocking
import Poski.Osal.HandleMutex

/-!
# The FreeRTOS Mutex

`os_mutex.c` of the FreeRTOS port, each call executed as a whole. A lock that is not granted is
a `POS_TIMEOUT`, whatever the reason; an unlock that is refused is a `POS_BAD_MUTEX`.
-/

namespace Poski.FreeRtos

variable {M ι : Type} (kernel : MutexKernel M ι ℤ BaseType) (b : Build)

/-- `pos_mutex_init`. -/
def posMutexInit (mu : Option (HandleMutex M)) :
    Except Halt (Option (HandleMutex M) × PosError) :=
  initHandle b kernel.create mu

/-- `pos_mutex_lock`, with `xSemaphoreTakeRecursive`. -/
def posMutexLock (inIsr : Bool) (mu : Option (HandleMutex M)) (t : ι) (timeout : UInt32) :
    Except Halt (Option (HandleMutex M) × PosError) := do
  b.assert !inIsr
  withHandle b mu fun handle => do
    let (handle, ret) ← kernel.take handle t timeout.toNat
    return (handle, if ret = pdPASS then .ok else .timeout)

/-- `pos_mutex_unlock`, with `xSemaphoreGiveRecursive`. -/
def posMutexUnlock (inIsr : Bool) (mu : Option (HandleMutex M)) (t : ι) :
    Except Halt (Option (HandleMutex M) × PosError) := do
  b.assert !inIsr
  withHandle b mu fun handle =>
    let (handle, ret) := kernel.give handle t
    .ok (handle, if ret ≠ pdPASS then .badMutex else .ok)

variable {kernel b} {m m' : M} {t : ι} {ret : BaseType}

/-- What the calls do with a mutex that has been created. -/
theorem posMutexLock_of_take {timeout : UInt32}
    (h : kernel.take m t timeout.toNat = .ok (m', ret)) :
    posMutexLock kernel b false (some { handle := some m }) t timeout =
      .ok (some { handle := some m' }, if ret = pdPASS then .ok else .timeout) := by
  simp [posMutexLock, withHandle, h, bind, Except.bind, pure, Except.pure]

theorem posMutexUnlock_of_give (h : kernel.give m t = (m', ret)) :
    posMutexUnlock kernel b false (some { handle := some m }) t =
      .ok (some { handle := some m' }, if ret ≠ pdPASS then .badMutex else .ok) := by
  simp [posMutexUnlock, withHandle, h, bind, Except.bind, pure, Except.pure]

/-- `pos_mutex_lock` is the function of `Blocking`, up to its native call. -/
theorem posMutexLock_split (timeout : UInt32) :
    ∃ call, Blocking.posMutexLock b false .inited timeout = .ok (.inr call) ∧
      call.ticks = timeout.toNat ∧
      posMutexLock kernel b false (some { handle := some m }) t timeout = (do
        let (m, ret) ← kernel.take m t call.ticks
        let err ← call.result ret
        return (some { handle := some m }, err)) := by
  refine ⟨{ ticks := timeout.toNat
            result := fun ret => .ok (if ret = pdPASS then .ok else .timeout) }, ?_, rfl, ?_⟩
  · simp [Blocking.posMutexLock, bind, Except.bind]
  · cases htake : kernel.take m t timeout.toNat <;>
      simp [posMutexLock, withHandle, htake, bind, Except.bind, pure, Except.pure]

end Poski.FreeRtos
