import Poski.FreeRtos.Semaphore
import Poski.Osal.Blocking

/-!
# Blocking Functions of the FreeRTOS Port

`pos_mutex_lock` of `os_mutex.c`, `pos_sem_take` of `os_sem.c` and `pos_queue_get` of
`os_queue.c`, called by a task, up to their native calls. The native timeout is a
`TickType_t`, that is a `uint32_t` number of ticks.

`posSemTake_split` and `posQueueGet_split` say that these are the functions of the other
modules, up to their native calls.
-/

namespace Poski.FreeRtos.Blocking

/-- `pos_mutex_lock`, up to `xSemaphoreTakeRecursive`. -/
def posMutexLock (b : Build) (inIsr : Bool) (mu : ObjectPtr) (timeout : UInt32) :
    Except Halt (PosError ⊕ NativeCall BaseType) := do
  b.assert !inIsr
  blockOn b mu timeout.toNat fun ret => .ok (if ret = pdPASS then .ok else .timeout)

/-- `pos_sem_take`, up to `xSemaphoreTake`. -/
def posSemTake (b : Build) (sem : ObjectPtr) (timeout : UInt32) :
    Except Halt (PosError ⊕ NativeCall BaseType) :=
  blockOn b sem timeout.toNat fun ret => .ok (if ret = pdPASS then .ok else .timeout)

/-- `pos_queue_get`, up to `xQueueReceive`. Neither the pointer nor the handle is checked. -/
def posQueueGet (b : Build) (queue : ObjectPtr) (tmo : UInt32) :
    Except Halt (PosError ⊕ NativeCall BaseType) :=
  match queue with
  | .null => .error .nullDeref
  | .object _ => .ok (.inr {
      ticks := tmo.toNat
      result := fun ret => do
        b.assert (ret == pdPASS || ret == errQUEUE_EMPTY)
        return .ok })

theorem posSemTake_split {S : Type} (kernel : SemaphoreKernel S) (b : Build) (handle : S)
    (timeout : UInt32) :
    ∃ call, posSemTake b .inited timeout = .ok (.inr call) ∧ call.ticks = timeout.toNat ∧
      FreeRtos.posSemTake kernel b false { handle := some handle } timeout = (do
        let (handle, ret) ← kernel.xSemaphoreTake handle timeout
        let err ← call.result ret
        return ({ handle := some handle }, err)) := by
  refine ⟨_, blockOn_inited b _ _, rfl, ?_⟩
  simp [FreeRtos.posSemTake, bind, Except.bind]

theorem posQueueGet_split {Q : Type} (kernel : QueueKernel Q) (b : Build) (queue : Q)
    (data : List UInt8) (tmo : UInt32) :
    ∃ call, posQueueGet b .inited tmo = .ok (.inr call) ∧ call.ticks = tmo.toNat ∧
      FreeRtos.posQueueGet kernel b false queue data tmo = (do
        let (queue, data, ret) ← kernel.xQueueReceive queue data tmo
        let err ← call.result ret
        return (queue, data, err)) := by
  refine ⟨_, rfl, rfl, ?_⟩
  simp [FreeRtos.posQueueGet]

end Poski.FreeRtos.Blocking
