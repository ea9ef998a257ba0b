import Mathlib.Tactic.NormNum
import Poski.FreeRtos.Timer
import Poski.Osal.TimeConversion

/-!
# Times on FreeRTOS

The inline functions of `os_port.h` of the FreeRTOS port that deal in times. A `TickType_t` is
a `uint32_t`, and `rate` is `POS_TICKS_PER_SEC`, that is `configTICK_RATE_HZ`.

- `elapsed_wrong` : a second that is measured across a wrap of `ticks * 1000`
- `elapsed_ms_iff` : which differences of `pos_time_get_ms` are right;
  `measuresElapsed_iff_of_rate_le` says it for the tick rates up to `2 ^ 31`
- `remaining_ticks_iff` : which remaining times of a timer are
-/

namespace Poski.FreeRtos

open Lib

/-! ## os_port.h -/

/-- `pos_time_ms_to_ticks`: `(ms * POS_TICKS_PER_SEC) / 1000`. -/
def posTimeMsToTicks (rate ms : UInt32) : UInt32 := mulDiv ms rate 1000

/-- `pos_time_ticks_to_ms`: `(ticks * 1000) / POS_TICKS_PER_SEC`. -/
def posTimeTicksToMs (rate ticks : UInt32) : UInt32 := mulDiv ticks 1000 rate

/-- `pos_time_get`, where the kernel's tick counter stands at `tickCount`. -/
def posTimeGet (tickCount : UInt32) : UInt32 := tickCount

/-- `pos_time_get_ms`. -/
def posTimeGetMs (rate tickCount : UInt32) : UInt32 :=
  posTimeTicksToMs rate (posTimeGet tickCount)

/-- `pos_timer_start_ms`. -/
def posTimerStartMs (rate duration : UInt32) : List Command × PosError :=
  let ticks := posTimeMsToTicks rate duration
  posTimerStart ticks

/-- `pos_task_sleep`: what it passes to `vTaskDelay`. -/
def posTaskSleep (ticks : UInt32) : UInt32 := ticks

/-- `pos_task_sleep_ms`. -/
def posTaskSleepMs (rate ms : UInt32) : UInt32 := posTaskSleep (posTimeMsToTicks rate ms)

/-- `pos_timer_remaining_ticks` of `os_timer.c`, of a timer that expires at tick `expiryTime`. -/
def posTimerRemainingTicks (expiryTime now : UInt32) : UInt32 := ticksUntil expiryTime now

/-! ## Elapsed times -/

/-- The difference of `pos_time_get_ms` over `d` ticks from counter value `t` on, to within one
millisecond. -/
def MeasuresElapsed (rate t : UInt32) (d : ℕ) : Prop :=
  |((posTimeGetMs rate (t + UInt32.ofNat d) - posTimeGetMs rate t).toNat : ℚ) -
    ((d * 1000 : ℕ) : ℚ) / rate.toNat| ≤ 1

/-- The 32-bit difference of two values. -/
theorem toNat_sub_eq_elapsed (u v : UInt32) :
    (v - u).toNat = elapsed (2 ^ 32) u.toNat v.toNat := by
  rw [UInt32.toNat_sub, elapsed, Nat.add_comm]

/-- The counter wraps, which the product does not notice. -/
theorem toNat_posTimeGetMs_add (rate t : UInt32) (d : ℕ) :
    (posTimeGetMs rate (t + UInt32.ofNat d)).toNat =
      scaled (2 ^ 32) 1000 rate.toNat (t.toNat + d) := by
  have hthousand : (1000 : UInt32).toNat = 1000 := rfl
  have hsum : (t + UInt32.ofNat d).toNat = (t.toNat + d) % 2 ^ 32 := by
    rw [UInt32.toNat_add, UInt32.toNat_ofNat', Nat.add_mod_mod]
  rw [posTimeGetMs, posTimeTicksToMs, posTimeGet, toNat_mulDiv, scaled, scaled, hsum, hthousand,
    Nat.mod_mul_mod]

theorem measuresElapsed_iff_scaled (rate t : UInt32) (d : ℕ) :
    MeasuresElapsed rate t d ↔
      |(elapsed (2 ^ 32) (scaled (2 ^ 32) 1000 rate.toNat t.toNat)
          (scaled (2 ^ 32) 1000 rate.toNat (t.toNat + d)) : ℚ) -
        ((d * 1000 : ℕ) : ℚ) / rate.toNat| ≤ 1 := by
  have hstart : (posTimeGetMs rate t).toNat = scaled (2 ^ 32) 1000 rate.toNat t.toNat := by
    simpa using toNat_posTimeGetMs_add rate t 0
  rw [MeasuresElapsed, toNat_sub_eq_elapsed, toNat_posTimeGetMs_add, hstart]

/-- A tick rate of 1000, and a product that wraps: `4294967` ticks are as many milliseconds, and
one tick later the milliseconds start from zero again. -/
theorem elapsed_wrong :
    ¬∀ (rate t : UInt32) (d : ℕ), 0 < rate → ((d * 1000 : ℕ) : ℚ) / rate.toNat < 2 ^ 32 →
      MeasuresElapsed rate t d := by
  intro halways
  have hthousand : (1000 : UInt32).toNat = 1000 := rfl
  have hmeasures := halways 1000 4294967 1 (by decide) (by rw [hthousand]; norm_num)
  have hdifference : posTimeGetMs 1000 (4294967 + UInt32.ofNat 1) - posTimeGetMs 1000 4294967 =
      4290672329 := by
    decide
  have hlarge : (4290672329 : UInt32).toNat = 4290672329 := rfl
  rw [MeasuresElapsed, hdifference, hlarge, hthousand, abs_le] at hmeasures
  norm_num at hmeasures

/-- **Elapsed times are right exactly if** `ticks * 1000` does not wrap meanwhile, or wraps as
often as there are ticks in a second, and the milliseconds once (or, at tick rates of more than
`2 ^ 31`, where its wraps and the rounding make up for each other). -/
theorem elapsed_ms_iff {rate t : UInt32} {d : ℕ} (hrate : 0 < rate)
    (hrange : ((d * 1000 : ℕ) : ℚ) / rate.toNat < 2 ^ 32) :
    MeasuresElapsed rate t d ↔
      KeepsElapsed (2 ^ 32) rate.toNat (t.toNat * 1000 % 2 ^ 32) (d * 1000) := by
  have hpos : 0 < rate.toNat := UInt32.lt_iff_toNat_lt.mp hrate
  rw [measuresElapsed_iff_scaled]
  exact scaled_elapsed_iff hpos rate.toNat_lt ((div_lt_two_pow_iff hpos).mp hrange)

/-- At one tick a second any elapsed time is measured, also across both wraps. -/
theorem elapsed_ms_iff_wraps : MeasuresElapsed 1 4294967295 4 := by
  have hkeeps : KeepsElapsed (2 ^ 32) (1 : UInt32).toNat
      ((4294967295 : UInt32).toNat * 1000 % 2 ^ 32) (4 * 1000) := by
    refine .inr (.inl ?_)
    decide
  have hone : (1 : UInt32).toNat = 1 := rfl
  exact (elapsed_ms_iff (by decide) (by rw [hone]; norm_num)).mpr hkeeps

/-- At tick rates up to `2 ^ 31` the product has to wrap not at all, or as often as there are
ticks in a second. -/
theorem measuresElapsed_iff_of_rate_le {rate t : UInt32} {d : ℕ} (hrate : 0 < rate)
    (hslow : rate.toNat ≤ 2 ^ 31) (hrange : ((d * 1000 : ℕ) : ℚ) / rate.toNat < 2 ^ 32) :
    MeasuresElapsed rate t d ↔
      (t.toNat * 1000 % 2 ^ 32 + d * 1000) / 2 ^ 32 = 0 ∨
      ((t.toNat * 1000 % 2 ^ 32 + d * 1000) / 2 ^ 32 = rate.toNat ∧
        d * 1000 + t.toNat * 1000 % 2 ^ 32 % rate.toNat < rate.toNat * 2 ^ 32) := by
  have hpos : 0 < rate.toNat := UInt32.lt_iff_toNat_lt.mp hrate
  have hproduct := (div_lt_two_pow_iff hpos).mp hrange
  rw [measuresElapsed_iff_scaled, scaled_elapsed_iff hpos rate.toNat_lt hproduct]
  exact keepsElapsed_iff hpos (by omega)

/-! ## Remaining times -/

/-- A timer that expires ten ticks from now, and beyond the wrap, has no time left. -/
theorem remaining_wrong :
    ¬∀ now d : UInt32, d.toNat < 2 ^ 31 → posTimerRemainingTicks (now + d) now = d ∧
      posTimerRemainingTicks (now - d) now = 0 := by
  intro halways
  have hremaining := (halways 4294967290 10 (by decide)).1
  revert hremaining
  decide

/-- **The remaining time is right exactly if** the counter does not wrap between now and the
expiry, be that in the future or in the past. -/
theorem remaining_ticks_iff (now d : UInt32) :
    (posTimerRemainingTicks (now + d) now = d ↔ now.toNat + d.toNat < 2 ^ 32) ∧
      (posTimerRemainingTicks (now - d) now = 0 ↔ d ≤ now) :=
  ⟨ticksUntil_add_iff, ticksUntil_sub_iff⟩

end Poski.FreeRtos
