import Poski.Posix.TimerRemaining

/-!
# What a POSIX Timer is Armed With

`pos_timer_start_ms` of `os_timer.c` of the POSIX port (where it is not `__APPLE__`), down to
the arguments of its `timer_settime`. On the way a duration is a `double` value, which is taken
as exact here, a number of ticks, and the seconds and nanoseconds of a `timespec`.

- `posTimerStart_eq_settime` : the call as a whole, around its native call
- `start_ms_arms` : what it is armed with, for any duration
-/

namespace Poski.Posix

/-! ## os_timer.c -/

/-- `struct itimerspec`. -/
structure Itimerspec where
  itInterval : Timespec
  itValue : Timespec
  deriving DecidableEq, Repr

/-- The arguments of `timer_settime`, without the last one, which is `NULL`. -/
structure SettimeArgs where
  timerid : ℕ
  flags : ℕ
  newValue : Itimerspec
  deriving DecidableEq, Repr

/-- `pos_timer_start` up to its `timer_settime`: the object then, and the arguments of that call.
There is none for an object that `pos_timer_inited` refuses. -/
def posTimerStartArgs (timer : PosTimer) (now ticks : UInt32) :
    Option (PosTimer × SettimeArgs) :=
  match timer.tmTimer with
  | none => none
  | some id =>
    let ticks := atLeastOne ticks
    let its : Itimerspec := { itInterval := ⟨0, 0⟩, itValue := timerValue ticks }
    some ({ timer with tmTicks := now + ticks, tmActive := true },
      { timerid := id, flags := 0, newValue := its })

/-- `pos_time_ms_to_ticks` of `os_time.c`: `(ms * POS_TICKS_PER_SEC_F) / ONE_THOUSAND`. -/
def doubleMsToTicks (ms : UInt32) : Option UInt32 :=
  doubleToUInt32 ((ms.toNat * 1000) / 1000)

/-- `pos_timer_start_ms`, likewise. -/
def posTimerStartMsArgs (timer : PosTimer) (now duration : UInt32) :
    Option (PosTimer × SettimeArgs) :=
  (doubleMsToTicks duration).bind fun delta => posTimerStartArgs timer now delta

/-! ## The native call in the whole call -/

variable {s : TimerState} {id : ℕ}

/-- The rest of `pos_timer_start`: the native call, and what is made of its result. -/
theorem posTimerStart_eq_settime {timer : PosTimer} {args : SettimeArgs} {now ticks : UInt32}
    (hargs : posTimerStartArgs s.timer now ticks = some (timer, args)) (ok : Bool) :
    posTimerStart s now ticks ok =
      (if (timerSettime s.kernel args.timerid args.newValue.itValue ok).1 then .ok else .einval,
        { timer := timer
          kernel := (timerSettime s.kernel args.timerid args.newValue.itValue ok).2 }) := by
  obtain ⟨⟨tmCb, tmTicks, tmTimer, tmActive, tmArg⟩, kernel⟩ := s
  cases tmTimer with
  | none => cases hargs
  | some id =>
    cases hargs
    rfl

/-- The two conversions agree: the one by 64-bit integers and the one by `double` values. -/
theorem doubleMsToTicks_eq (ms : UInt32) : doubleMsToTicks ms = some (posTimeMsToTicks ms) := by
  rw [posTimeMsToTicks_eq]
  exact posTimeTicksToMs_eq ms

/-! ## What it is armed with -/

/-- `timer_settime` is to make the timer `id` expire once, `ms` milliseconds from now. -/
structure ArmsOnce (args : SettimeArgs) (id ms : ℕ) : Prop where
  timerid : args.timerid = id
  relative : args.flags = 0
  once : args.newValue.itInterval = ⟨0, 0⟩
  valid : args.newValue.itValue.Valid
  sec_nonneg : 0 ≤ args.newValue.itValue.tvSec
  ne_zero : args.newValue.itValue ≠ ⟨0, 0⟩
  toNs : args.newValue.itValue.toNs = ms * 1000000

theorem toNat_atLeastOne (ticks : UInt32) :
    (atLeastOne ticks).toNat = max ticks.toNat 1 := by
  unfold atLeastOne
  split
  case isTrue hzero =>
    rw [hzero]
    rfl
  case isFalse hne =>
    have hpos : 0 < ticks.toNat := UInt32.lt_iff_toNat_lt.mp (UInt32.pos_iff_ne_zero.mpr hne)
    exact (Nat.max_eq_left hpos).symm

/-- The seconds and the nanoseconds of a number of ticks, which are reduced twice. -/
theorem valid_timerValue (ticks : UInt32) :
    (timerValue ticks).Valid ∧ 0 ≤ (timerValue ticks).tvSec := by
  unfold timerValue Timespec.Valid
  dsimp only
  omega

theorem armsOnce_of_args {timer : PosTimer} {args : SettimeArgs} {now ticks : UInt32}
    (hargs : posTimerStartArgs s.timer now ticks = some (timer, args))
    (htimer : s.timer.tmTimer = some id) :
    ArmsOnce args id (max ticks.toNat 1) ∧
      (posTimerGetTicks timer).toNat = (now.toNat + max ticks.toNat 1) % 2 ^ 32 := by
  rw [posTimerStartArgs, htimer] at hargs
  cases hargs
  obtain ⟨hvalid, hsec⟩ := valid_timerValue (atLeastOne ticks)
  have hns := toNs_timerValue (atLeastOne ticks)
  rw [← toNat_atLeastOne]
  exact ⟨⟨rfl, rfl, rfl, hvalid, hsec, timerValue_ne_zero (atLeastOne_ne_zero ticks), hns⟩,
    UInt32.toNat_add _ _⟩

/-- **A start in milliseconds** arms the timer for just these milliseconds, or for one if there
are none, whatever the duration and whatever the clock shows; and the object then holds the tick
at which that is over. -/
theorem start_ms_arms (htimer : s.timer.tmTimer = some id) (now duration : UInt32) :
    ∃ timer args, posTimerStartMsArgs s.timer now duration = some (timer, args) ∧
      ArmsOnce args id (max duration.toNat 1) ∧
      (posTimerGetTicks timer).toNat = (now.toNat + max duration.toNat 1) % 2 ^ 32 ∧
      (∀ ok, (posTimerStartMs s now duration ok).2.timer = timer) ∧
      (posTimerStartMs s now duration true).2.isArmed = true := by
  obtain ⟨⟨timer, args⟩, hargs⟩ :
      ∃ res, posTimerStartArgs s.timer now duration = some res := by
    rw [posTimerStartArgs, htimer]
    exact ⟨_, rfl⟩
  obtain ⟨harms, hticks⟩ := armsOnce_of_args hargs htimer
  have hstart : ∀ ok, posTimerStartMs s now duration ok = posTimerStart s now duration ok := by
    intro ok
    rw [posTimerStartMs, posTimeMsToTicks_eq]
  refine ⟨timer, args, ?_, harms, hticks, ?_, ?_⟩
  · rw [posTimerStartMsArgs, doubleMsToTicks_eq, posTimeMsToTicks_eq]
    exact hargs
  · intro ok
    rw [hstart, posTimerStart_eq_settime hargs]
  · rw [hstart, posTimerStart_eq htimer]
    simp [TimerState.isArmed, htimer]

/-- A duration of zero, one tick before the clock wraps. -/
theorem start_ms_arms_zero :
    ∃ timer args,
      posTimerStartMsArgs ⟨0, 0, some 0, false, 0⟩ 4294967295 0 = some (timer, args) ∧
        ArmsOnce args 0 1 ∧ posTimerGetTicks timer = 0 := by
  let s : TimerState := { timer := ⟨0, 0, some 0, false, 0⟩, kernel := ⟨1, fun _ => false⟩ }
  have htimer : s.timer.tmTimer = some 0 := rfl
  obtain ⟨timer, args, hargs, harms, hticks, -⟩ := start_ms_arms htimer 4294967295 0
  exact ⟨timer, args, hargs, harms, UInt32.toNat_inj.mp hticks⟩

end Poski.Posix
