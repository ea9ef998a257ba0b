import Poski.Posix.Mutex
import Poski.Posix.Semaphore

/-!
# Deadlines on POSIX

`pos_sem_take` and `pos_mutex_lock` (where it is not `__APPLE__`) up to their native wait. Both
add the timeout to a reading of the clock, the seconds to the seconds and the rest to the
nanoseconds, and carry nothing over.

- `valid_addSec_addNsec_iff` : when no carry is needed
- `deadline_right_iff` : which deadlines are right
-/

namespace Poski.Posix

open Lib

universe u

/-! ## Native waits -/

/-- How a call waits: not at all, since the clock cannot be read; without a deadline; or until
one. -/
inductive NativeWait where
  | clockFails
  | forever
  | timed (deadline : Timespec)
  deriving DecidableEq, Repr

/-- The statements of the two functions before their native call. -/
def NativeWait.of (clock : Option ClockReading) (timeout : UInt32) : NativeWait :=
  if timeout = POS_TIME_FOREVER then .forever
  else
    match clock with
    | none => .clockFails
    | some reading =>
      let wait := reading.time
      let wait := wait.addSec timeout
      let wait := wait.addNsec timeout
      .timed wait

/-- `pos_sem_take` up to `sem_wait` or `sem_timedwait`. -/
def posSemTakeWait (clock : Option ClockReading) (timeout : UInt32) : NativeWait :=
  NativeWait.of clock timeout

/-- `pos_mutex_lock` up to `pthread_mutex_lock` or `pthread_mutex_timedlock`. -/
def posMutexLockWait (clock : Option ClockReading) (timeout : UInt32) : NativeWait :=
  NativeWait.of clock timeout

variable {ι : Type u} [DecidableEq ι]

/-- `pthread_mutex_timedlock`, called by task `t` and executed as a whole. As with
`sem_timedwait`, it is up to the host whether a call that need not wait looks at its deadline. -/
def pthreadMutexTimedlock (looksFirst : Bool) (l : RecLock ι) (t : ι) (deadline : Timespec) :
    Errno × RecLock ι :=
  if looksFirst = true ∧ ¬deadline.Valid then (.EINVAL, l)
  else
    match l.lock mutexLimit t with
    | some l' => (.success, l')
    | none =>
      -- the owner does not wait: it has locked the mutex too often, and that is `EAGAIN`
      if l.owner = some t then (.other 11, l)
      else if deadline.Valid then (.ETIMEDOUT, l)
      else (.EINVAL, l)

/-- It locks the mutex, or fails and leaves it alone. -/
theorem pthreadMutexTimedlock_cases (looksFirst : Bool) (l : RecLock ι) (t : ι)
    (deadline : Timespec) :
    (∃ l', l.lock mutexLimit t = some l' ∧
      pthreadMutexTimedlock looksFirst l t deadline = (.success, l')) ∨
    ∃ ret, ret ≠ .success ∧ pthreadMutexTimedlock looksFirst l t deadline = (ret, l) := by
  unfold pthreadMutexTimedlock
  by_cases hinvalid : looksFirst = true ∧ ¬deadline.Valid
  · rw [if_pos hinvalid]
    exact .inr ⟨.EINVAL, by decide, rfl⟩
  · rw [if_neg hinvalid]
    cases hlock : l.lock mutexLimit t with
    | some l' => exact .inl ⟨l', rfl, rfl⟩
    | none =>
      right
      split_ifs
      · exact ⟨.other 11, by decide, rfl⟩
      · exact ⟨.ETIMEDOUT, by decide, rfl⟩
      · exact ⟨.EINVAL, by decide, rfl⟩

/-- A valid deadline may be looked at at any time. -/
theorem pthreadMutexTimedlock_of_valid {looksFirst : Bool} {l : RecLock ι} {t : ι}
    {deadline : Timespec} (hvalid : deadline.Valid) :
    pthreadMutexTimedlock looksFirst l t deadline =
      match l.lock mutexLimit t with
      | some l' => (.success, l')
      | none => if l.owner = some t then (.other 11, l) else (.ETIMEDOUT, l) := by
  have hnot : ¬(looksFirst = true ∧ ¬deadline.Valid) := fun hinvalid => hinvalid.2 hvalid
  rw [pthreadMutexTimedlock, if_neg hnot, if_pos hvalid]

/-! ## The calls they are part of -/

/-- `pos_sem_take` from its native wait on. -/
def NativeWait.takeSem (looksFirst : Bool) (sem : SemT) :
    NativeWait → Except Halt (PosError × SemT)
  | clockFails => .ok (mapPosixToOsalError (.other (-1)), sem)
  | forever =>
    match sem.take with
    | some sem' => .ok (mapPosixToOsalError .success, sem')
    | none => .error .blocked
  | timed deadline =>
    let (ret, sem) := semTimedwait looksFirst sem deadline
    .ok (mapPosixToOsalError ret, sem)

/-- The two halves are `pos_sem_take`. -/
theorem posSemTake_eq_wait (looksFirst : Bool) (clock : Option ClockReading) (sem : SemT)
    (timeout : UInt32) :
    posSemTake looksFirst clock sem timeout =
      (posSemTakeWait clock timeout).takeSem looksFirst sem := by
  by_cases hforever : timeout = POS_TIME_FOREVER
  · cases htake : sem.take <;>
      simp [posSemTake, posSemTakeWait, NativeWait.of, NativeWait.takeSem, hforever, htake]
  · cases clock <;>
      simp [posSemTake, posSemTakeWait, NativeWait.of, NativeWait.takeSem, hforever]

/-- A call of `pos_mutex_lock` that nobody disturbs enters its native wait with this deadline. -/
theorem enter_eq_wait {s s' : Mutex.State ι}
    (hreach : (Mutex.posMutex ι).ReachableWhen Mutex.Alone s) {t : ι} {deadline : Timespec}
    (hstep : (Mutex.posMutex ι).step s (.enter t deadline) s') {timeout : UInt32}
    {reading : ClockReading}
    (hpc : s.pc t = .timedlock timeout reading.time) (hfinite : timeout ≠ POS_TIME_FOREVER) :
    posMutexLockWait (some reading) timeout = .timed deadline := by
  rw [Mutex.entered_deadline hreach hstep hpc]
  exact if_neg hfinite

/-- It leaves that wait with what the native call returns. -/
theorem leave_timedlock (looksFirst : Bool) {s : Mutex.State ι} {t : ι} {deadline : Timespec}
    (hpc : s.pc t = .waiting deadline) :
    ∃ s', (Mutex.posMutex ι).step s
        (.leave t (pthreadMutexTimedlock looksFirst s.lock t deadline).1) s' ∧
      s'.lock = (pthreadMutexTimedlock looksFirst s.lock t deadline).2 := by
  rcases pthreadMutexTimedlock_cases looksFirst s.lock t deadline with
    ⟨l, hlock, heq⟩ | ⟨ret, hret, heq⟩
  · rw [heq]
    exact ⟨_, .leave hpc hlock, rfl⟩
  · rw [heq]
    exact ⟨_, .leaveFails hpc hret, rfl⟩

/-! ## Deadlines -/

variable {timeout : UInt32}

/-- **No carry is needed** exactly if the nanoseconds of the reading and those of the timeout
are less than a second together. -/
theorem valid_addSec_addNsec_iff (reading : ClockReading) :
    ((reading.time.addSec timeout).addNsec timeout).Valid ↔
      reading.time.tvNsec + timeout.toNat % 1000 * 1000000 < 1000000000 := by
  have hnonneg := reading.nsec_nonneg
  simp only [Timespec.Valid, Timespec.addNsec, Timespec.addSec, Timespec.toNat_mod_mul]
  omega

theorem semTimedwait_ne_einval {deadline : Timespec} (hvalid : deadline.Valid)
    (looksFirst : Bool) (sem : SemT) : (semTimedwait looksFirst sem deadline).1 ≠ .EINVAL := by
  rw [semTimedwait_of_valid hvalid]
  cases sem.take with
  | some sem' => simp
  | none => simp

theorem pthreadMutexTimedlock_ne_einval {deadline : Timespec} (hvalid : deadline.Valid)
    (looksFirst : Bool) (l : RecLock ι) (t : ι) :
    (pthreadMutexTimedlock looksFirst l t deadline).1 ≠ .EINVAL := by
  rw [pthreadMutexTimedlock_of_valid hvalid]
  cases l.lock mutexLimit t with
  | some l' => simp
  | none => by_cases howner : l.owner = some t <;> simp [howner]

/-- The two calls that wait until a deadline. -/
inductive TimedCall where
  | semTake
  | mutexLock
  deriving DecidableEq, Repr

def TimedCall.wait (clock : Option ClockReading) (timeout : UInt32) : TimedCall → NativeWait
  | semTake => posSemTakeWait clock timeout
  | mutexLock => posMutexLockWait clock timeout

/-- The native wait does not fail with `EINVAL`, on whatever host and for whatever it waits. -/
def TimedCall.NeverInvalid (deadline : Timespec) : TimedCall → Prop
  | semTake => ∀ looksFirst sem, (semTimedwait looksFirst sem deadline).1 ≠ .EINVAL
  | mutexLock => ∀ looksFirst (l : RecLock ℕ) (t : ℕ),
    (pthreadMutexTimedlock looksFirst l t deadline).1 ≠ .EINVAL

/-- The call waits until a valid time, which is the reading plus the timeout, and its wait does
not fail with `EINVAL`. -/
def TimedCall.DeadlineRight (reading : ClockReading) (timeout : UInt32) (call : TimedCall) : Prop :=
  ∃ deadline, call.wait (some reading) timeout = .timed deadline ∧ deadline.Valid ∧
    deadline.toNs = reading.time.toNs + timeout.toNat * 1000000 ∧ call.NeverInvalid deadline

/-- A reading of half a second past ten, and a timeout of 600 milliseconds. -/
theorem deadline_invalid :
    ¬∀ (call : TimedCall) (reading : ClockReading) (timeout : UInt32),
      0 ≤ reading.time.tvSec → timeout ≠ POS_TIME_FOREVER → call.DeadlineRight reading timeout := by
  intro halways
  let reading : ClockReading := ⟨⟨10, 500000000⟩, by decide, by decide, by decide⟩
  obtain ⟨deadline, hwait, hvalid, _⟩ :=
    halways .semTake reading 600 (by decide) (by decide)
  have hdeadline : TimedCall.semTake.wait (some reading) 600 = .timed ⟨10, 1100000000⟩ := by
    decide
  rw [hdeadline, NativeWait.timed.injEq] at hwait
  subst hwait
  revert hvalid
  decide

theorem TimedCall.wait_eq (reading : ClockReading) (hfinite : timeout ≠ POS_TIME_FOREVER)
    (call : TimedCall) :
    call.wait (some reading) timeout = .timed ((reading.time.addSec timeout).addNsec timeout) := by
  cases call <;> exact if_neg hfinite

theorem TimedCall.neverInvalid_of_valid {deadline : Timespec} (hvalid : deadline.Valid)
    (call : TimedCall) : call.NeverInvalid deadline := by
  cases call with
  | semTake => exact semTimedwait_ne_einval hvalid
  | mutexLock => exact pthreadMutexTimedlock_ne_einval hvalid

/-- **A deadline is right exactly if** no carry is needed. -/
theorem deadline_right_iff (call : TimedCall) (reading : ClockReading)
    (hfinite : timeout ≠ POS_TIME_FOREVER) :
    call.DeadlineRight reading timeout ↔
      reading.time.tvNsec + timeout.toNat % 1000 * 1000000 < 1000000000 := by
  simp only [TimedCall.DeadlineRight, call.wait_eq reading hfinite, NativeWait.timed.injEq,
    exists_eq_left', Timespec.toNs_addSec_addNsec, true_and, valid_addSec_addNsec_iff]
  refine and_iff_left_of_imp fun hsmall => ?_
  exact call.neverInvalid_of_valid ((valid_addSec_addNsec_iff reading).mpr hsmall)

/-- A timeout of whole seconds. -/
theorem deadline_right_iff_seconds :
    TimedCall.mutexLock.DeadlineRight ⟨⟨10, 999999999⟩, by decide, by decide, by decide⟩ 5000 ↔
      (999999999 : ℤ) + (5000 : UInt32).toNat % 1000 * 1000000 < 1000000000 :=
  deadline_right_iff .mutexLock _ (by decide)

end Poski.Posix
