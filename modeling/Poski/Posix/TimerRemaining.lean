import Poski.Osal.TimeConversion
import Poski.Posix.Clock
import Poski.Posix.Timer

/-!
# The Time Left on a POSIX Timer

`pos_timer_remaining_ticks` of `os_timer.c` of the POSIX port (where it is not `__APPLE__`).
`timer_gettime` stores how long it is until the timer expires. The code takes the seconds of
that for the tick at which it does, and subtracts `now` from it.

- `remaining_too_short` : a timer that was just started
- `remaining_close_iff` : when the result is about right nevertheless
-/

namespace Poski.Posix

/-! ## os_timer.c -/

/-- `timer_gettime` of an armed timer that has `left` nanoseconds to go: its `it_value`. -/
def timerGettime (left : ℕ) : Timespec where
  tvSec := (left / 1000000000 : ℕ)
  tvNsec := (left % 1000000000 : ℕ)

/-- `pos_timer_remaining_ticks`; `value` is what `timer_gettime` stores. -/
def posTimerRemainingTicks (value : Timespec) (now : UInt32) : UInt32 :=
  ticksUntil (UInt32.ofInt (value.tvSec * 1000)) now

/-- `pos_timer_get_ticks`. -/
def posTimerGetTicks (timer : PosTimer) : UInt32 := timer.tmTicks

/-! ## Armed timers -/

/-- A timer that was started with `ticks` at one reading of the clock, and is still armed at
another one. -/
structure ArmedTimer where
  before : TimerState
  inited : before.timer.tmTimer.isSome
  ticks : UInt32
  ticks_pos : 0 < ticks
  ticks_lt : ticks.toNat < 2 ^ 31
  start : MonotonicReading
  now : MonotonicReading
  start_le : start.ns ≤ now.ns
  armed : (now.ns : ℤ) - start.ns < (timerValue ticks).toNs

namespace ArmedTimer

variable (a : ArmedTimer)

/-- The object, once `pos_timer_start` has returned, which has read `t₀` from the clock. -/
def timer (t₀ : UInt32) : PosTimer := (posTimerStart a.before t₀ a.ticks true).2.timer

/-- The nanoseconds that are left. -/
def left : ℕ := ((timerValue a.ticks).toNs - (a.now.ns - a.start.ns)).toNat

/-- The ticks of the clock since the start. -/
def passed : ℕ := a.now.ms - a.start.ms

/-- `pos_time_get` returns something at both readings, and for what it returns at the second one,
`pos_timer_remaining_ticks` returns `pos_timer_get_ticks` less that, to within one tick. -/
def RemainingClose : Prop :=
  ∃ t₀ now, posTimeGet (some a.start.time) = some t₀ ∧ posTimeGet (some a.now.time) = some now ∧
    |((posTimerRemainingTicks (timerGettime a.left) now).toNat : ℤ) -
      (posTimerGetTicks (a.timer t₀) - now).toNat| ≤ 1

end ArmedTimer

/-! ## The time left -/

/-- The value that a timer is armed with is its number of ticks. -/
theorem toNs_timerValue (ticks : UInt32) :
    (timerValue ticks).toNs = ticks.toNat * 1000000 := by
  simp only [Timespec.toNs, timerValue, Timespec.toNat_mod_mul, Timespec.toNat_div_thousand]
  omega

namespace ArmedTimer

variable (a : ArmedTimer)

theorem left_eq : a.left + a.now.ns = a.ticks.toNat * 1000000 + a.start.ns := by
  have harmed := a.armed
  unfold left
  rw [toNs_timerValue] at harmed ⊢
  omega

theorem passed_le : a.passed ≤ a.ticks.toNat := by
  have hleft := a.left_eq
  unfold passed MonotonicReading.ms
  omega

/-- What the two other functions make of it: the ticks that have not passed. -/
theorem getTicks_sub :
    (posTimerGetTicks (a.timer (.ofNat a.start.ms)) - .ofNat a.now.ms).toNat =
      a.ticks.toNat - a.passed := by
  obtain ⟨id, htimer⟩ := Option.isSome_iff_exists.mp a.inited
  have hone : atLeastOne a.ticks = a.ticks := by
    have hne : a.ticks ≠ 0 := (UInt32.pos_iff_ne_zero).mp a.ticks_pos
    exact if_neg hne
  have hnow : a.now.ms = a.start.ms + a.passed := by
    have hms : a.start.ms ≤ a.now.ms := Nat.div_le_div_right a.start_le
    unfold passed
    omega
  have hpassed := a.passed_le
  have hlt := a.ticks_lt
  rw [timer, posTimerStart_eq htimer, hone]
  simp only [posTimerGetTicks, UInt32.toNat_sub, UInt32.toNat_add, UInt32.toNat_ofNat', hnow]
  omega

/-- The seconds that are left, in milliseconds: they are not so many that this would wrap. -/
theorem toNat_seconds :
    (UInt32.ofInt ((timerGettime a.left).tvSec * 1000)).toNat = a.left / 1000000000 * 1000 := by
  have hleft := a.left_eq
  have hstart := a.start_le
  have hlt := a.ticks_lt
  have hsmall : a.left / 1000000000 * 1000 < 2 ^ 32 := by omega
  simp only [UInt32.ofInt, UInt32.toNat_ofNat', timerGettime]
  omega

/-- As long as the clock returns the number of ticks, it does so at both readings. -/
theorem remainingClose_of_early (hearly : a.now.ns < 1000000 * 2 ^ 32) :
    a.RemainingClose ↔
      |((posTimerRemainingTicks (timerGettime a.left) (.ofNat a.now.ms)).toNat : ℤ) -
        (a.ticks.toNat - a.passed : ℕ)| ≤ 1 := by
  have hstart : posTimeGet (some a.start.time) = some (.ofNat a.start.ms) := by
    rw [posTimeGet_eq, if_pos (a.start_le.trans_lt hearly)]
  have hnow : posTimeGet (some a.now.time) = some (.ofNat a.now.ms) := by
    rw [posTimeGet_eq, if_pos hearly]
  rw [RemainingClose, hstart, hnow, ← a.getTicks_sub]
  constructor
  · rintro ⟨_, _, ht₀, hnow', hclose⟩
    cases ht₀
    cases hnow'
    exact hclose
  · exact fun hclose => ⟨_, _, rfl, rfl, hclose⟩

/-- From `2 ^ 32` ticks on there is no `now` to call it with. -/
theorem early_of_remainingClose (hclose : a.RemainingClose) : a.now.ns < 1000000 * 2 ^ 32 := by
  obtain ⟨_, now, _, hnow, _⟩ := hclose
  by_contra hlate
  rw [posTimeGet_eq, if_neg hlate] at hnow
  cases hnow

/-- A timer that is started with ten seconds when the clock stands at twenty: it has no time
left. -/
theorem remaining_too_short : ¬∀ a : ArmedTimer, a.RemainingClose := by
  intro halways
  let start : MonotonicReading := ⟨⟨⟨20, 0⟩, Int.le_refl 0, by decide, by decide⟩, by decide⟩
  let a : ArmedTimer :=
    { before := { timer := ⟨0, 0, some 0, false, 0⟩, kernel := ⟨1, fun _ => false⟩ }
      inited := rfl
      ticks := 10000
      ticks_pos := by decide
      ticks_lt := by decide
      start := start
      now := start
      start_le := Nat.le_refl _
      armed := by decide }
  have hclose := halways a
  rw [a.remainingClose_of_early (by decide), posTimerRemainingTicks, toNat_ticksUntil,
    toNat_seconds] at hclose
  revert hclose
  decide

/-- **The result is right exactly if** the clock has not come to `2 ^ 32` ticks, from where on it
returns nothing that is defined, and one tick is left at most, or the seconds that are left are
as good as all of it and the clock has just started from zero. -/
theorem remaining_close_iff :
    a.RemainingClose ↔
      a.now.ns < 1000000 * 2 ^ 32 ∧
        (a.ticks.toNat ≤ a.passed + 1 ∨
          a.now.ms + (a.ticks.toNat - a.passed) ≤ a.left / 1000000000 * 1000 + 1) := by
  have hleft := a.left_eq
  have hpassed := a.passed_le
  have hstart := a.start_le
  -- the seconds are no more than the ticks, so that the result is never too large
  have hseconds : a.left / 1000000000 * 1000 ≤ a.ticks.toNat - a.passed := by
    unfold passed MonotonicReading.ms
    omega
  by_cases hearly : a.now.ns < 1000000 * 2 ^ 32
  · have hms : a.now.ms < 2 ^ 32 := Nat.div_lt_of_lt_mul hearly
    rw [a.remainingClose_of_early hearly, posTimerRemainingTicks, toNat_ticksUntil, toNat_seconds,
      UInt32.toNat_ofNat_of_lt' hms, abs_le, and_iff_right hearly]
    omega
  · exact iff_of_false (fun hclose => hearly (a.early_of_remainingClose hclose))
      fun hcond => hearly hcond.1

end ArmedTimer

end Poski.Posix
