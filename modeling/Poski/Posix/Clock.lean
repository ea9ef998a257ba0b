import Mathlib.Algebra.Order.Floor.Semifield
import Mathlib.Data.Rat.Floor
import Poski.Lib.ScaledCounter
import Poski.Posix.Time

/-!
# The POSIX Clock

`pos_time_get` and `pos_time_get_ms` of `os_time.c` of the POSIX port (where it is not
`__APPLE__`). Times are computed as `double` values, which are taken as exact here, and end as
a `uint32_t`, to which only values below `2 ^ 32` can be converted: there is nothing that takes
them modulo `2 ^ 32`.

- `posTimeGet_eq` : what the clock returns, and until when it does
- `elapsed_iff` : which elapsed times are measured
-/

namespace Poski.Posix

open Lib

/-! ## os_time.c -/

/-- The conversion of a `double` to `uint32_t` discards the fraction. It is undefined where the
integer that is left is none of the type. -/
def doubleToUInt32 (x : ℚ) : Option UInt32 :=
  if -1 < x ∧ x < 2 ^ 32 then some (UInt32.ofNat ⌊x⌋₊) else none

/-- `now.tv_sec * POS_TICKS_PER_SEC_F + now.tv_nsec / POS_TICKS_PER_NANOSEC_F`, where there are
1000 ticks in a second. -/
def tickValue (now : Timespec) : ℚ := now.tvSec * 1000 + now.tvNsec / 1000000

/-- `pos_time_get`; `clock` is what `clock_gettime` reads, if it succeeds. -/
def posTimeGet (clock : Option Timespec) : Option UInt32 :=
  match clock with
  | none => some 0
  | some now => doubleToUInt32 (tickValue now)

/-- `pos_time_ticks_to_ms`. -/
def posTimeTicksToMs (ticks : UInt32) : Option UInt32 :=
  doubleToUInt32 ((ticks.toNat * 1000) / 1000)

/-- `pos_time_get_ms`. -/
def posTimeGetMs (clock : Option Timespec) : Option UInt32 :=
  (posTimeGet clock).bind posTimeTicksToMs

/-! ## Readings -/

/-- A reading of `CLOCK_MONOTONIC`. -/
structure MonotonicReading extends ClockReading where
  sec_nonneg : 0 ≤ time.tvSec

namespace MonotonicReading

variable (r : MonotonicReading)

/-- The reading in nanoseconds. -/
def ns : ℕ := r.time.toNs.toNat

/-- The whole milliseconds, which are ticks. -/
def ms : ℕ := r.ns / 1000000

theorem coe_ns : (r.ns : ℤ) = r.time.tvSec * 1000000000 + r.time.tvNsec := by
  have hsec := r.sec_nonneg
  have hnsec := r.nsec_nonneg
  unfold ns Timespec.toNs
  omega

/-- Seconds and nanoseconds make up a number of milliseconds, with a fraction. -/
theorem tickValue_eq : tickValue r.time = (r.ns : ℚ) / (1000000 : ℕ) := by
  have hns : (r.ns : ℚ) = r.time.tvSec * 1000000000 + r.time.tvNsec := by
    exact_mod_cast congrArg (Int.cast : ℤ → ℚ) r.coe_ns
  rw [tickValue, hns]
  push_cast
  ring

end MonotonicReading

/-! ## What the clock returns -/

variable {r r₁ r₂ : MonotonicReading} {t : UInt32}

/-- A quotient is converted if it is less than `2 ^ 32`, and cut off. -/
theorem doubleToUInt32_div {n d : ℕ} (hd : 0 < d) :
    doubleToUInt32 ((n : ℚ) / d) =
      if n < d * 2 ^ 32 then some (UInt32.ofNat (n / d)) else none := by
  have hnonneg : (0 : ℚ) ≤ (n : ℚ) / d := by positivity
  have hlow : (-1 : ℚ) < (n : ℚ) / d := by linarith only [hnonneg]
  simp only [doubleToUInt32, hlow, true_and, div_lt_two_pow_iff hd, Nat.floor_div_eq_div]

/-- The clock returns the number of ticks until there are `2 ^ 32` of them, and nothing that is
defined from then on. -/
theorem posTimeGet_eq (r : MonotonicReading) :
    posTimeGet (some r.time) =
      if r.ns < 1000000 * 2 ^ 32 then some (UInt32.ofNat r.ms) else none := by
  rw [posTimeGet, r.tickValue_eq, doubleToUInt32_div (by decide), MonotonicReading.ms]

/-- A tick is a millisecond. -/
theorem posTimeTicksToMs_eq (ticks : UInt32) : posTimeTicksToMs ticks = some ticks := by
  have hlt := ticks.toNat_lt
  have hconverted := doubleToUInt32_div (n := ticks.toNat * 1000) (d := 1000) (by decide)
  have hrange : ticks.toNat * 1000 < 1000 * 2 ^ 32 := by omega
  have hquotient : ticks.toNat * 1000 / 1000 = ticks.toNat := Nat.mul_div_cancel _ (by decide)
  rw [if_pos hrange, hquotient, UInt32.ofNat_toNat] at hconverted
  push_cast at hconverted
  exact hconverted

theorem posTimeGetMs_eq (clock : Option Timespec) : posTimeGetMs clock = posTimeGet clock := by
  simp [posTimeGetMs, posTimeTicksToMs_eq]

/-! ## Elapsed times -/

/-- The clock returns the number of ticks, modulo `2 ^ 32`. -/
def ReturnsTicks (r : MonotonicReading) : Prop :=
  ∃ t, posTimeGet (some r.time) = some t ∧ t.toNat = r.ms % 2 ^ 32

/-- The difference of the clock's values at two readings is the time between them, to within
one millisecond. -/
def MeasuresElapsed (get : Option Timespec → Option UInt32) (r₁ r₂ : MonotonicReading) : Prop :=
  ∃ t₁ t₂, get (some r₁.time) = some t₁ ∧ get (some r₂.time) = some t₂ ∧
    |((t₂ - t₁).toNat : ℚ) - ((r₂.ns - r₁.ns : ℕ) : ℚ) / (1000000 : ℕ)| ≤ 1

theorem returnsTicks_iff (r : MonotonicReading) :
    ReturnsTicks r ↔ r.ns < 1000000 * 2 ^ 32 := by
  unfold ReturnsTicks
  rw [posTimeGet_eq]
  constructor
  · intro hreturns
    obtain ⟨t, hsome, _⟩ := hreturns
    by_contra hlate
    rw [if_neg hlate] at hsome
    cases hsome
  · intro hearly
    exact ⟨UInt32.ofNat r.ms, if_pos hearly, UInt32.toNat_ofNat'⟩

theorem measuresElapsed_iff (hle : r₁.ns ≤ r₂.ns) :
    MeasuresElapsed posTimeGet r₁ r₂ ↔ r₂.ns < 1000000 * 2 ^ 32 := by
  simp only [MeasuresElapsed, posTimeGet_eq]
  constructor
  · intro hmeasures
    obtain ⟨_, t₂, _, hsome, _⟩ := hmeasures
    by_contra hlate
    rw [if_neg hlate] at hsome
    cases hsome
  · intro hearly
    refine ⟨UInt32.ofNat r₁.ms, UInt32.ofNat r₂.ms, if_pos (hle.trans_lt hearly), if_pos hearly, ?_⟩
    -- neither value has wrapped, and so neither has their difference
    have hms : r₁.ms ≤ r₂.ms := Nat.div_le_div_right hle
    have hlt : r₂.ms < 2 ^ 32 := Nat.div_lt_of_lt_mul hearly
    have hdifference : (UInt32.ofNat r₂.ms - UInt32.ofNat r₁.ms).toNat = r₂.ms - r₁.ms := by
      rw [UInt32.toNat_sub, UInt32.toNat_ofNat_of_lt' hlt,
        UInt32.toNat_ofNat_of_lt' (hms.trans_lt hlt)]
      omega
    rw [hdifference, abs_sub_div_le_one_iff (by decide)]
    unfold MonotonicReading.ms
    omega

/-- Two readings a second apart, of which the later one is of 49 days and some hours. -/
theorem clock_undefined :
    ¬∀ r₁ r₂ : MonotonicReading, r₁.ns ≤ r₂.ns → r₂.ns - r₁.ns < 1000000 * 2 ^ 32 →
      ReturnsTicks r₂ ∧ MeasuresElapsed posTimeGet r₁ r₂ ∧ MeasuresElapsed posTimeGetMs r₁ r₂ := by
  intro halways
  let earlier : MonotonicReading := ⟨⟨⟨4294967, 0⟩, Int.le_refl 0, by decide, by decide⟩, by decide⟩
  let later : MonotonicReading := ⟨⟨⟨4294968, 0⟩, Int.le_refl 0, by decide, by decide⟩, by decide⟩
  have hle : earlier.ns ≤ later.ns := by decide
  have hmeasures := (halways earlier later hle (by decide)).2.1
  rw [measuresElapsed_iff hle] at hmeasures
  revert hmeasures
  decide

/-- **Elapsed times are measured exactly if** the later reading is one of less than `2 ^ 32`
milliseconds, and so is a single one converted. -/
theorem elapsed_iff (r : MonotonicReading) :
    (ReturnsTicks r ↔ r.ns < 1000000 * 2 ^ 32) ∧
      ∀ r₁ : MonotonicReading, r₁.ns ≤ r.ns →
        (MeasuresElapsed posTimeGet r₁ r ↔ r.ns < 1000000 * 2 ^ 32) ∧
        (MeasuresElapsed posTimeGetMs r₁ r ↔ r.ns < 1000000 * 2 ^ 32) := by
  have hms : posTimeGetMs = posTimeGet := funext posTimeGetMs_eq
  rw [hms]
  exact ⟨returnsTicks_iff r, fun _ hle => ⟨measuresElapsed_iff hle, measuresElapsed_iff hle⟩⟩

/-- An hour after the system was started. -/
theorem elapsed_iff_hour :
    (ReturnsTicks ⟨⟨⟨3600, 0⟩, Int.le_refl 0, by decide, by decide⟩, by decide⟩ ↔
        (3600000000000 : ℕ) < 1000000 * 2 ^ 32) ∧
      (MeasuresElapsed posTimeGet ⟨⟨⟨0, 0⟩, Int.le_refl 0, by decide, by decide⟩, Int.le_refl 0⟩
          ⟨⟨⟨3600, 0⟩, Int.le_refl 0, by decide, by decide⟩, by decide⟩ ↔
        (3600000000000 : ℕ) < 1000000 * 2 ^ 32) := by
  have hiff := elapsed_iff ⟨⟨⟨3600, 0⟩, Int.le_refl 0, by decide, by decide⟩, by decide⟩
  exact ⟨hiff.1, (hiff.2 _ (by decide)).1⟩

end Poski.Posix
