import Poski.Posix.Deadline
import Poski.Posix.OsMutex

/-!
# Whole Calls of the POSIX Mutex

`os_mutex.c` where it is not `__APPLE__`, one call at a time: what the caller gets and what
the mutex has become. A lock that waits forever for another task is `blocked`.
`pos_mutex_unlock` stands with the class that uses it.
-/

namespace Poski.Posix

open Lib

universe u

/-- `pos_mutex_init`, by what its three native calls return. -/
def posMutexInit (ι : Type u) (attrInit settype init : Errno) : PosError × Option (RecLock ι) :=
  if attrInit ≠ .success then (.badMutex, none)
  else if settype ≠ .success then (.badMutex, none)
  else if init ≠ .success then (.badMutex, none)
  else (.ok, some .free)

theorem posMutexInit_eq_ok {ι : Type u} {attrInit settype init : Errno} {l : RecLock ι} :
    posMutexInit ι attrInit settype init = (.ok, some l) ↔
      (attrInit = .success ∧ settype = .success ∧ init = .success) ∧ l = .free := by
  unfold posMutexInit
  split_ifs <;> simp_all [eq_comm]

variable {ι : Type u} [DecidableEq ι] {l l' : RecLock ι} {t u : ι}

/-- `pthread_mutex_lock` on a recursive mutex, called by task `t`. -/
def pthreadMutexLock (l : RecLock ι) (t : ι) : Except Halt (Errno × RecLock ι) :=
  match l.lock mutexLimit t with
  | some l' => .ok (.success, l')
  | none =>
    -- `EAGAIN`, as in `pthreadMutexTimedlock`
    if l.owner = some t then .ok (.other 11, l)
    else .error .blocked

/-- `pos_mutex_lock`; `looksFirst` as in `pthreadMutexTimedlock`. -/
def posMutexLock (looksFirst : Bool) (clock : Option ClockReading) (l : RecLock ι) (t : ι)
    (timeout : UInt32) : Except Halt (PosError × RecLock ι) :=
  match posMutexLockWait clock timeout with
  | .clockFails => .ok (mapPosixToOsalError (.other (-1)), l)
  | .forever => do
    let (ret, l) ← pthreadMutexLock l t
    return (mapPosixToOsalError ret, l)
  | .timed deadline =>
    let (ret, l) := pthreadMutexTimedlock looksFirst l t deadline
    .ok (mapPosixToOsalError ret, l)

variable {looksFirst : Bool} {reading : ClockReading}

theorem posMutexLockWait_forever (clock : Option ClockReading) :
    posMutexLockWait clock POS_TIME_FOREVER = .forever := by
  simp [posMutexLockWait, NativeWait.of]

/-- A lock without a deadline that the native mutex grants. -/
theorem posMutexLock_forever_of_lock {clock : Option ClockReading}
    (h : l.lock mutexLimit t = some l') :
    posMutexLock looksFirst clock l t POS_TIME_FOREVER = .ok (.ok, l') := by
  simp [posMutexLock, posMutexLockWait_forever, pthreadMutexLock, h, mapPosixToOsalError, bind,
    Except.bind, pure, Except.pure]

theorem lock_eq_none_of_owner (h : l.owner = some u) (hu : u ≠ t) :
    l.lock mutexLimit t = none := by
  refine if_neg fun hl => ?_
  rcases hl.1 with rfl | howner
  · cases h
  · exact hu (Option.some_inj.mp (h.symm.trans howner))

/-- A lock without a deadline waits for another owner. -/
theorem posMutexLock_forever_of_owner {clock : Option ClockReading} (h : l.owner = some u)
    (hu : u ≠ t) : posMutexLock looksFirst clock l t POS_TIME_FOREVER = .error .blocked := by
  have hnone : l.lock mutexLimit t = none := lock_eq_none_of_owner h hu
  have howner : l.owner ≠ some t := fun heq => hu (Option.some_inj.mp (h.symm.trans heq))
  simp [posMutexLock, posMutexLockWait_forever, pthreadMutexLock, hnone, howner, bind, Except.bind]

/-- A lock that may not wait has a valid deadline. -/
theorem posMutexLock_noWait :
    posMutexLock looksFirst (some reading) l t POS_TIME_NO_WAIT =
      match l.lock mutexLimit t with
      | some l' => .ok (.ok, l')
      | none => if l.owner = some t then .ok (.error, l) else .ok (.timeout, l) := by
  have hvalid : reading.time.Valid := ⟨reading.nsec_nonneg, reading.nsec_lt⟩
  simp only [posMutexLock, posMutexLockWait, NativeWait.of, if_neg no_wait_ne_forever,
    addNsec_addSec_no_wait, pthreadMutexTimedlock_of_valid hvalid]
  cases l.lock mutexLimit t with
  | some l' => simp [mapPosixToOsalError]
  | none => by_cases howner : l.owner = some t <;> simp [howner, mapPosixToOsalError]

/-- A lock that may not wait is granted by the native mutex. -/
theorem posMutexLock_noWait_of_lock (h : l.lock mutexLimit t = some l') :
    posMutexLock looksFirst (some reading) l t POS_TIME_NO_WAIT = .ok (.ok, l') := by
  rw [posMutexLock_noWait, h]

/-- A lock that may not wait times out if the mutex has another owner. -/
theorem posMutexLock_noWait_of_owner (h : l.owner = some u) (hu : u ≠ t) :
    posMutexLock looksFirst (some reading) l t POS_TIME_NO_WAIT = .ok (.timeout, l) := by
  have hnone : l.lock mutexLimit t = none := lock_eq_none_of_owner h hu
  have howner : l.owner ≠ some t := fun heq => hu (Option.some_inj.mp (h.symm.trans heq))
  rw [posMutexLock_noWait, hnone]
  exact if_neg howner

end Poski.Posix
