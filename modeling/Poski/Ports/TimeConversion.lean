import Poski.FreeRtos.Time
import Poski.RtThread.Time

/-!
# Milliseconds and Ticks on FreeRTOS and RT-Thread

Both ports convert milliseconds to ticks and back by one 32-bit product and one division. The
product wraps long before the exact value does, and the division rounds down, so that a duration
that is no whole number of ticks is cut short.

- `converts_well_iff` : which conversions are right
- `never_short_iff` : which durations are kept
-/

namespace Poski.Ports

/-! ## Conversions -/

/-- The ports that count ticks in 32 bits. -/
inductive TickPort where
  | freeRtos
  | rtThread
  deriving DecidableEq, Repr

def TickPort.msToTicks (rate ms : UInt32) : TickPort → UInt32
  | freeRtos => FreeRtos.posTimeMsToTicks rate ms
  | rtThread => RtThread.posTimeMsToTicks rate ms

def TickPort.ticksToMs (rate ticks : UInt32) : TickPort → UInt32
  | freeRtos => FreeRtos.posTimeTicksToMs rate ticks
  | rtThread => RtThread.posTimeTicksToMs rate ticks

variable {rate x ms : UInt32}

/-- The ports do not differ. -/
theorem msToTicks_eq (port : TickPort) : port.msToTicks rate x = mulDiv x rate 1000 := by
  cases port <;> rfl

theorem ticksToMs_eq (port : TickPort) : port.ticksToMs rate x = mulDiv x 1000 rate := by
  cases port <;> rfl

/-- At 1000 ticks a second `4294968` milliseconds, a little more than an hour, make no tick at
all. -/
theorem product_wraps :
    ¬∀ (port : TickPort) (rate x : UInt32), 0 < rate →
      ConvertsWell (port.msToTicks rate x) x rate 1000 ∧
        ConvertsWell (port.ticksToMs rate x) x 1000 rate := by
  intro halways
  have hrate : (0 : UInt32) < 1000 := by decide
  have hclose := (halways .freeRtos 1000 4294968 hrate).1
  rw [msToTicks_eq, mulDiv_convertsWell_iff hrate] at hclose
  revert hclose
  decide

/-- **A conversion is right exactly if** its product does not wrap, or the exact value is no
32-bit number, in each direction and on both ports. -/
theorem converts_well_iff (port : TickPort) (hrate : 0 < rate) (x : UInt32) :
    (ConvertsWell (port.msToTicks rate x) x rate 1000 ↔
      x.toNat * rate.toNat < 2 ^ 32 ∨ 1000 * 2 ^ 32 ≤ x.toNat * rate.toNat) ∧
    (ConvertsWell (port.ticksToMs rate x) x 1000 rate ↔
      x.toNat * 1000 < 2 ^ 32 ∨ rate.toNat * 2 ^ 32 ≤ x.toNat * 1000) := by
  rw [msToTicks_eq, ticksToMs_eq]
  have hthousand : (0 : UInt32) < 1000 := by decide
  exact ⟨mulDiv_convertsWell_iff hthousand, mulDiv_convertsWell_iff hrate⟩

/-- At 100 ticks a second, an hour. -/
theorem converts_well_iff_hour :
    (ConvertsWell (TickPort.rtThread.msToTicks 100 3600000) 3600000 100 1000 ↔
      (3600000 : UInt32).toNat * (100 : UInt32).toNat < 2 ^ 32 ∨
        1000 * 2 ^ 32 ≤ (3600000 : UInt32).toNat * (100 : UInt32).toNat) ∧
    (ConvertsWell (TickPort.rtThread.ticksToMs 100 3600000) 3600000 1000 100 ↔
      (3600000 : UInt32).toNat * 1000 < 2 ^ 32 ∨
        (100 : UInt32).toNat * 2 ^ 32 ≤ (3600000 : UInt32).toNat * 1000) :=
  converts_well_iff .rtThread (by decide) 3600000

/-! ## Durations -/

/-- The functions that take a duration in milliseconds and hand ticks to the kernel. -/
inductive DurationFn where
  | freeRtosTimerStart
  | rtThreadTimerStart
  | freeRtosTaskSleep
  deriving DecidableEq, Repr

/-- The kernel is handed `n` ticks: the native timer is armed with them, whatever it was before,
or the task is delayed by them. -/
def DurationFn.Uses (rate ms n : UInt32) : DurationFn → Prop
  | freeRtosTimerStart => ∀ timer : FreeRtos.KTimer,
      FreeRtos.drain timer (FreeRtos.posTimerStartMs rate ms).1 = { active := true, period := n }
  | rtThreadTimerStart => ∀ timer : RtThread.RtTimer,
      RtThread.posTimerStartMs rate timer ms = ({ initTick := n, activated := true }, .ok)
  | freeRtosTaskSleep => FreeRtos.posTaskSleepMs rate ms = n

/-- A timer is started with one tick at least. -/
def DurationFn.atLeastOne : DurationFn → Bool
  | freeRtosTimerStart | rtThreadTimerStart => true
  | freeRtosTaskSleep => false

/-- The ticks of a duration: those it converts to, and one for a timer if there are none. -/
def DurationFn.ticks (rate ms : UInt32) (fn : DurationFn) : UInt32 :=
  if fn.atLeastOne ∧ mulDiv ms rate 1000 = 0 then 1 else mulDiv ms rate 1000

/-- The second of the three commands sets the period, whatever the timer was. -/
theorem drain_posTimerStartMs (timer : FreeRtos.KTimer) :
    FreeRtos.drain timer (FreeRtos.posTimerStartMs rate ms).1 =
      { active := true, period := DurationFn.freeRtosTimerStart.ticks rate ms } := by
  by_cases hzero : mulDiv ms rate 1000 = 0 <;>
    simp [hzero, DurationFn.ticks, DurationFn.atLeastOne, FreeRtos.posTimerStartMs,
      FreeRtos.posTimerStart, FreeRtos.posTimeMsToTicks, FreeRtos.Command.apply, FreeRtos.drain]

theorem rtThread_posTimerStartMs (timer : RtThread.RtTimer) :
    RtThread.posTimerStartMs rate timer ms =
      ({ initTick := DurationFn.rtThreadTimerStart.ticks rate ms, activated := true }, .ok) := by
  by_cases hzero : mulDiv ms rate 1000 = 0 <;>
    simp [hzero, DurationFn.ticks, DurationFn.atLeastOne, RtThread.posTimerStartMs,
      RtThread.posTimerStart, RtThread.posTimeMsToTicks]

theorem uses_iff (fn : DurationFn) {n : UInt32} : fn.Uses rate ms n ↔ fn.ticks rate ms = n := by
  cases fn with
  | freeRtosTimerStart =>
    simp only [DurationFn.Uses, drain_posTimerStartMs, FreeRtos.KTimer.mk.injEq, true_and]
    -- any timer will do to see what is armed
    exact ⟨fun huses => huses { active := false, period := 1 }, fun hticks _ => hticks⟩
  | rtThreadTimerStart =>
    simp only [DurationFn.Uses, rtThread_posTimerStartMs, RtThread.RtTimer.mk.injEq, Prod.mk.injEq,
      and_true]
    exact ⟨fun huses => huses { initTick := 1, activated := false }, fun hticks _ => hticks⟩
  | freeRtosTaskSleep =>
    simp [DurationFn.Uses, DurationFn.ticks, DurationFn.atLeastOne, FreeRtos.posTaskSleepMs,
      FreeRtos.posTaskSleep, FreeRtos.posTimeMsToTicks]

/-- At 100 ticks a second `15` milliseconds are a tick and a half, and one tick is used. -/
theorem cut_short :
    ¬∀ (fn : DurationFn) (rate ms : UInt32), 0 < rate → ms.toNat * rate.toNat < 2 ^ 32 →
      ∃ n, fn.Uses rate ms n ∧ ms.toNat * rate.toNat ≤ n.toNat * 1000 := by
  intro halways
  obtain ⟨n, huses, hlong⟩ := halways .freeRtosTimerStart 100 15 (by decide) (by decide)
  rw [uses_iff] at huses
  subst huses
  revert hlong
  decide

/-- **A duration is kept exactly if** it is a whole number of ticks, or less than the one tick
that a timer is started with at least. -/
theorem never_short_iff (fn : DurationFn) (hfits : ms.toNat * rate.toNat < 2 ^ 32) :
    (∃ n, fn.Uses rate ms n ∧ ms.toNat * rate.toNat ≤ n.toNat * 1000) ↔
      1000 ∣ ms.toNat * rate.toNat ∨ fn.atLeastOne ∧ ms.toNat * rate.toNat < 1000 := by
  have hthousand : (1000 : UInt32).toNat = 1000 := rfl
  have hticks : (mulDiv ms rate 1000).toNat = ms.toNat * rate.toNat / 1000 := by
    rw [toNat_mulDiv_of_lt hfits, hthousand]
  have hzero : mulDiv ms rate 1000 = 0 ↔ ms.toNat * rate.toNat < 1000 := by
    rw [← UInt32.toNat_inj, hticks, UInt32.toNat_zero, Nat.div_eq_zero_iff_lt (by decide)]
  simp only [uses_iff, exists_eq_left']
  -- the one tick is more than enough; what is converted is kept only if nothing is cut off
  by_cases hone : fn.atLeastOne ∧ mulDiv ms rate 1000 = 0
  · have hless := hzero.mp hone.2
    have honeTick : fn.ticks rate ms = 1 := if_pos hone
    rw [honeTick, UInt32.toNat_one, Nat.one_mul]
    exact iff_of_true hless.le (.inr ⟨hone.1, hless⟩)
  · have hconverted : fn.ticks rate ms = mulDiv ms rate 1000 := if_neg hone
    rw [hzero] at hone
    rw [hconverted, hticks, Lib.le_div_mul_iff, or_iff_left hone]

/-- Ten milliseconds at 100 ticks a second are one tick. -/
theorem never_short_iff_tick :
    (∃ n, DurationFn.freeRtosTaskSleep.Uses 100 10 n ∧
        (10 : UInt32).toNat * (100 : UInt32).toNat ≤ n.toNat * 1000) ↔
      1000 ∣ (10 : UInt32).toNat * (100 : UInt32).toNat ∨
        DurationFn.freeRtosTaskSleep.atLeastOne ∧
          (10 : UInt32).toNat * (100 : UInt32).toNat < 1000 :=
  never_short_iff .freeRtosTaskSleep (by decide)

end Poski.Ports
