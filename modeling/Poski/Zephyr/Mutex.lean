import Poski.Osal.HandleMutex
import Poski.Zephyr.Semaphore

/-!
# The Zephyr Mutex

`os_mutex.c` of the Zephyr port, each call executed as a whole. The `k_mutex` is part of
`struct pos_mutex`. A lock that may not wait finds a mutex locked with `-EBUSY`, and one that has
waited in vain with `-EAGAIN`; as in `os_sem.c` the port knows the second code only.
-/

namespace Poski.Zephyr

variable {M ι : Type} (kernel : MutexKernel M ι KTimeout Int)

/-- `pos_mutex_init`; what `k_mutex_init` returns is not looked at. -/
def posMutexInit : Option M × PosError := (kernel.create, .ok)

/-- `pos_mutex_lock`, with `k_mutex_lock`. -/
def posMutexLock (mutex : M) (t : ι) (timeout : UInt32) : Except Halt (M × PosError) := do
  let tmo : KTimeout :=
    if timeout = POS_TIME_FOREVER then .forever
    else if timeout = POS_TIME_NO_WAIT then .noWait
    else .msec timeout
  let (mutex, err) ← kernel.take mutex t tmo
  if err = 0 then
    return (mutex, .ok)
  else if err = -EAGAIN then
    return (mutex, .timeout)
  else
    return (mutex, .error)

/-- `pos_mutex_unlock`, with `k_mutex_unlock`. -/
def posMutexUnlock (mutex : M) (t : ι) : M × PosError :=
  let (mutex, err) := kernel.give mutex t
  (mutex, if err = 0 then .ok else .error)

variable {kernel} {m m' : M} {t : ι}

/-- What a lock that may not wait does. -/
theorem posMutexLock_noWait {err : Int} (h : kernel.take m t .noWait = .ok (m', err)) :
    posMutexLock kernel m t POS_TIME_NO_WAIT =
      .ok (m', if err = 0 then .ok else if err = -EAGAIN then .timeout else .error) := by
  have htmo : POS_TIME_NO_WAIT ≠ POS_TIME_FOREVER := by decide
  simp only [posMutexLock, htmo, if_false, if_true, h, bind, Except.bind, pure, Except.pure]
  split_ifs <;> rfl

end Poski.Zephyr
