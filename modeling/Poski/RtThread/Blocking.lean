import Poski.Osal.Blocking

/-!
# Blocking Functions of the RT-Thread Port

`pos_mutex_lock` of `os_mutex.c`, `pos_sem_take` of `os_sem.c` and `pos_queue_get` of
`os_queue.c`, up to their native calls. The native timeout is an `rt_int32_t` number of
ticks, where a negative one means to wait for ever.
-/

namespace Poski.RtThread

/-- `rt_err_t`. -/
abbrev RtErr := Int

def RT_EOK : RtErr := 0

/-- `pos_mutex_lock`, up to `rt_mutex_take`. -/
def posMutexLock (b : Build) (mu : ObjectPtr) (timeout : UInt32) :
    Except Halt (PosError ⊕ NativeCall RtErr) :=
  blockOn b mu timeout.toInt32.toInt fun ret => .ok (if ret = RT_EOK then .ok else .badMutex)

/-- `pos_sem_take`, up to `rt_sem_take`. -/
def posSemTake (b : Build) (sem : ObjectPtr) (timeout : UInt32) :
    Except Halt (PosError ⊕ NativeCall RtErr) :=
  blockOn b sem timeout.toInt32.toInt fun ret => .ok (if ret = RT_EOK then .ok else .timeout)

/-- `pos_queue_get`, up to `rt_mq_recv`. The pointer is not checked. -/
def posQueueGet (b : Build) (queue : ObjectPtr) (tmo : UInt32) :
    Except Halt (PosError ⊕ NativeCall RtErr) :=
  match queue with
  | .null => .error .nullDeref
  | .object hasHandle =>
    blockOn b (.object hasHandle) tmo.toInt32.toInt fun ret =>
      .ok (if ret = RT_EOK then .ok else .error)

end Poski.RtThread
