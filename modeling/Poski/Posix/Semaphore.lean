import Poski.Lib.CountingSem
import Poski.Posix.Native
import Poski.Posix.Time

/-!
# The POSIX Semaphore, Call by Call

`os_sem.c` of the POSIX port (where it is not `__APPLE__`), each call executed as a whole.
A `take` that has to wait finds nobody who gives meanwhile: with a deadline it comes back
when the deadline has passed, without one it is `blocked`.
-/

namespace Poski.Posix

open Lib

/-- The largest count of a POSIX semaphore. -/
def SEM_VALUE_MAX : ℕ := 2147483647

/-- `sem_t`. -/
abbrev SemT := CountingSem SEM_VALUE_MAX

/-! ## Native calls -/

/-- `sem_post`. -/
def semPost (sem : SemT) : Errno × SemT :=
  match sem.give with
  | some sem' => (.success, sem')
  | none => (.other (-1), sem)

/-- `sem_timedwait`, and the value of `errno` after a failure. A call that need not wait may look
at its deadline nevertheless; whether it does is up to the host (`looksFirst`). -/
def semTimedwait (looksFirst : Bool) (sem : SemT) (deadline : Timespec) : Errno × SemT :=
  if looksFirst = true ∧ ¬deadline.Valid then (.EINVAL, sem)
  else
    match sem.take with
    | some sem' => (.success, sem')
    | none => if deadline.Valid then (.ETIMEDOUT, sem) else (.EINVAL, sem)

/-! ## os_sem.c -/

/-- `pos_sem_init`. -/
def posSemInit (tokens : UInt16) : PosError × Option SemT :=
  match CountingSem.new SEM_VALUE_MAX tokens.toNat with
  | some sem => (mapPosixToOsalError .success, some sem)
  | none => (mapPosixToOsalError (.other (-1)), none)

/-- `pos_sem_give`. -/
def posSemGive (sem : SemT) : PosError × SemT :=
  let (ret, sem) := semPost sem
  (mapPosixToOsalError ret, sem)

/-- `pos_sem_take`; `clock` is what `clock_gettime` reads, if it succeeds. -/
def posSemTake (looksFirst : Bool) (clock : Option ClockReading) (sem : SemT) (timeout : UInt32) :
    Except Halt (PosError × SemT) :=
  if timeout = POS_TIME_FOREVER then
    match sem.take with
    | some sem' => .ok (mapPosixToOsalError .success, sem')
    | none => .error .blocked
  else
    match clock with
    | none => .ok (mapPosixToOsalError (.other (-1)), sem)
    | some reading =>
      let wait := (reading.time.addSec timeout).addNsec timeout
      let (ret, sem) := semTimedwait looksFirst sem wait
      .ok (mapPosixToOsalError ret, sem)

/-! ## What the calls do -/

variable {looksFirst : Bool} {clock : Option ClockReading} {sem sem' : SemT} {timeout : UInt32}
  {deadline : Timespec} {err : PosError}

theorem posSemInit_eq (tokens : UInt16) :
    ∃ sem, posSemInit tokens = (.ok, some sem) ∧ sem.count = tokens.toNat := by
  have hle : tokens.toNat ≤ SEM_VALUE_MAX := by
    have hlt := tokens.toNat_lt
    unfold SEM_VALUE_MAX
    omega
  refine ⟨⟨tokens.toNat, hle⟩, ?_, rfl⟩
  simp [posSemInit, CountingSem.new_of_le hle, mapPosixToOsalError]

theorem posSemGive_eq_ok : posSemGive sem = (.ok, sem') ↔ sem'.count = sem.count + 1 := by
  rw [← CountingSem.give_eq_some]
  unfold posSemGive semPost
  cases sem.give <;> simp [mapPosixToOsalError]

/-- A give that fails has found the semaphore at its maximum, and leaves it there. -/
theorem posSemGive_fails (h : posSemGive sem = (err, sem')) (herr : err ≠ .ok) :
    sem.count = SEM_VALUE_MAX ∧ sem' = sem := by
  unfold posSemGive semPost at h
  cases hgive : sem.give with
  | some _ =>
    simp only [hgive] at h
    exact absurd (Prod.mk.inj h).1.symm herr
  | none =>
    simp only [hgive] at h
    exact ⟨CountingSem.give_eq_none.mp hgive, (Prod.mk.inj h).2.symm⟩

/-- Below its maximum a semaphore can be given. -/
theorem posSemGive_of_lt (h : sem.count < SEM_VALUE_MAX) :
    posSemGive sem = (.ok, ⟨sem.count + 1, h⟩) :=
  posSemGive_eq_ok.mpr rfl

/-- At its maximum it cannot. -/
theorem posSemGive_max (hmax : sem.count = SEM_VALUE_MAX) : posSemGive sem = (.error, sem) := by
  have hgive : sem.give = none := CountingSem.give_eq_none.mpr hmax
  simp [posSemGive, semPost, hgive, mapPosixToOsalError]

/-- A valid deadline may be looked at at any time. -/
theorem semTimedwait_of_valid (hvalid : deadline.Valid) :
    semTimedwait looksFirst sem deadline =
      match sem.take with
      | some sem' => (.success, sem')
      | none => (.ETIMEDOUT, sem) := by
  have hnot : ¬(looksFirst = true ∧ ¬deadline.Valid) := fun hinvalid => hinvalid.2 hvalid
  rw [semTimedwait, if_neg hnot, if_pos hvalid]

/-- Whatever the deadline, a wait that succeeds has taken a token. -/
theorem take_of_semTimedwait (h : semTimedwait looksFirst sem deadline = (.success, sem')) :
    sem.take = some sem' := by
  unfold semTimedwait at h
  split at h
  · cases h
  · cases htake : sem.take with
    | some _ =>
      rw [htake] at h
      cases h
      rfl
    | none =>
      rw [htake] at h
      split_ifs at h
      all_goals cases h

/-- A take that succeeds has taken a token. -/
theorem posSemTake_eq_ok (h : posSemTake looksFirst clock sem timeout = .ok (.ok, sem')) :
    sem.count = sem'.count + 1 := by
  rw [← CountingSem.take_eq_some]
  unfold posSemTake at h
  split at h
  · cases htake : sem.take <;> simp_all [mapPosixToOsalError]
  · cases clock with
    | none => simp [mapPosixToOsalError] at h
    | some reading =>
      simp only [Except.ok.injEq, Prod.mk.injEq, mapPosixToOsalError_eq_ok] at h
      exact take_of_semTimedwait (Prod.ext h.1 h.2)

/-- The deadline of a take that may not wait is the time at which it is called. -/
theorem addNsec_addSec_no_wait (ts : Timespec) :
    (ts.addSec POS_TIME_NO_WAIT).addNsec POS_TIME_NO_WAIT = ts := by
  simp [Timespec.addSec, Timespec.addNsec, POS_TIME_NO_WAIT]

theorem no_wait_ne_forever : POS_TIME_NO_WAIT ≠ POS_TIME_FOREVER := by
  decide

/-- A take that may not wait has a valid deadline. -/
theorem posSemTake_no_wait (looksFirst : Bool) (reading : ClockReading) (sem : SemT) :
    posSemTake looksFirst (some reading) sem POS_TIME_NO_WAIT =
      match sem.take with
      | some sem' => .ok (.ok, sem')
      | none => .ok (.timeout, sem) := by
  rw [posSemTake, if_neg no_wait_ne_forever]
  simp only [addNsec_addSec_no_wait, semTimedwait_of_valid ⟨reading.nsec_nonneg, reading.nsec_lt⟩]
  cases sem.take with
  | some sem' => simp [mapPosixToOsalError]
  | none => simp [mapPosixToOsalError]

theorem posSemTake_pos (looksFirst : Bool) (reading : ClockReading) (hpos : 0 < sem.count) :
    ∃ sem', posSemTake looksFirst (some reading) sem POS_TIME_NO_WAIT = .ok (.ok, sem') ∧
      sem.count = sem'.count + 1 := by
  cases htake : sem.take with
  | none =>
    rw [CountingSem.take_eq_none] at htake
    omega
  | some sem' =>
    refine ⟨sem', ?_, CountingSem.take_eq_some.mp htake⟩
    rw [posSemTake_no_wait, htake]

theorem posSemTake_zero (looksFirst : Bool) (reading : ClockReading) (hzero : sem.count = 0) :
    posSemTake looksFirst (some reading) sem POS_TIME_NO_WAIT = .ok (.timeout, sem) := by
  have htake := CountingSem.take_eq_none.mpr hzero
  rw [posSemTake_no_wait, htake]

theorem posSemTake_forever_pos (looksFirst : Bool) (clock : Option ClockReading)
    (hpos : 0 < sem.count) :
    ∃ sem', posSemTake looksFirst clock sem POS_TIME_FOREVER = .ok (.ok, sem') ∧
      sem.count = sem'.count + 1 := by
  cases htake : sem.take with
  | none =>
    rw [CountingSem.take_eq_none] at htake
    omega
  | some sem' =>
    refine ⟨sem', ?_, CountingSem.take_eq_some.mp htake⟩
    simp [posSemTake, htake, mapPosixToOsalError]

/-- A take that may wait for ever waits for a token. -/
theorem posSemTake_forever_zero (hzero : sem.count = 0) :
    posSemTake looksFirst clock sem POS_TIME_FOREVER = .error .blocked := by
  have htake := CountingSem.take_eq_none.mpr hzero
  simp [posSemTake, htake]

end Poski.Posix
