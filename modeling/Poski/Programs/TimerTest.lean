import Poski.Ports.TimeConversion
import Poski.Zephyr.Time

/-!
# The Time Conversions of the Timer Test

`test_time_conversions` of `test_os_timer.c`, which is the first thing that the program does. It
converts a second, a hundred seconds and a hundredth of a second, at whatever tick rate the
program is built for.

- `testTimeConvert_eq_ok` : what one comparison comes down to
- `conversions_pass_iff` : the tick rates at which they pass
-/

namespace Poski.Programs.TimerTest

open Lib Ports

/-- `VerifyOrQuit`; a check that fails ends the program with its message. -/
def verifyOrQuit (tst : Bool) (msg : String) : Except String Unit :=
  if tst then .ok () else .error msg

def TEST_TIME_CONVERSION_MARGIN : UInt32 := 1

/-- `test_time_convert`, where the port converts by `ticksToMs` and `msToTicks`. -/
def testTimeConvert (ticksToMs msToTicks : UInt32 → UInt32) (truthTicks truthMs : UInt32) :
    Except String Unit := do
  let ms := ticksToMs truthTicks
  verifyOrQuit (ms ≥ truthMs - TEST_TIME_CONVERSION_MARGIN)
    "time: ticks to ms conversion too short"
  verifyOrQuit (ms ≤ truthMs + TEST_TIME_CONVERSION_MARGIN)
    "time: ticks to ms conversion too long"
  let ticks := msToTicks truthMs
  verifyOrQuit (ticks ≥ truthTicks - TEST_TIME_CONVERSION_MARGIN)
    "time: ms to ticks conversion too short"
  verifyOrQuit (ticks ≤ truthTicks + TEST_TIME_CONVERSION_MARGIN)
    "time: ms to ticks conversion too long"

/-- `test_time_conversions`. -/
def testTimeConversions (ticksToMs msToTicks : UInt32 → UInt32) (tps : UInt32) :
    Except String Unit := do
  testTimeConvert ticksToMs msToTicks tps 1000
  testTimeConvert ticksToMs msToTicks (tps * 100) 100000
  testTimeConvert ticksToMs msToTicks (tps / 100) 10

/-! ## The checks -/

variable {f g : UInt32 → UInt32} {ticks ms rate : UInt32}

theorem verifyOrQuit_bind {tst : Bool} {msg : String} {next : Unit → Except String Unit} :
    (verifyOrQuit tst msg >>= next) = .ok () ↔ tst = true ∧ next () = .ok () := by
  cases tst <;> simp [verifyOrQuit, bind, Except.bind]

theorem verifyOrQuit_eq_ok {tst : Bool} {msg : String} :
    verifyOrQuit tst msg = .ok () ↔ tst = true := by
  cases tst <;> simp [verifyOrQuit]

/-- One comparison, in 32 bits. -/
theorem testTimeConvert_eq_ok_iff :
    testTimeConvert f g ticks ms = .ok () ↔
      ms - 1 ≤ f ticks ∧ f ticks ≤ ms + 1 ∧ ticks - 1 ≤ g ms ∧ g ms ≤ ticks + 1 := by
  unfold testTimeConvert
  rw [verifyOrQuit_bind, verifyOrQuit_bind, verifyOrQuit_bind, verifyOrQuit_eq_ok]
  simp only [decide_eq_true_iff]
  rfl

theorem toNat_sub_one (hms : 0 < ms.toNat) : (ms - 1).toNat = ms.toNat - 1 :=
  UInt32.toNat_sub_of_le _ _ (UInt32.le_iff_toNat_le.mpr hms)

theorem toNat_add_one (hms : ms.toNat + 1 < 2 ^ 32) : (ms + 1).toNat = ms.toNat + 1 := by
  rw [UInt32.toNat_add]
  exact Nat.mod_eq_of_lt hms

/-- Where neither truth is at the end of the range. -/
theorem testTimeConvert_eq_ok (hticks : 0 < ticks.toNat) (hticks' : ticks.toNat + 1 < 2 ^ 32)
    (hms : 0 < ms.toNat) (hms' : ms.toNat + 1 < 2 ^ 32) :
    testTimeConvert f g ticks ms = .ok () ↔
      (ms.toNat - 1 ≤ (f ticks).toNat ∧ (f ticks).toNat ≤ ms.toNat + 1) ∧
      ticks.toNat - 1 ≤ (g ms).toNat ∧ (g ms).toNat ≤ ticks.toNat + 1 := by
  rw [testTimeConvert_eq_ok_iff, UInt32.le_iff_toNat_le, UInt32.le_iff_toNat_le,
    UInt32.le_iff_toNat_le, UInt32.le_iff_toNat_le, toNat_sub_one hms, toNat_add_one hms',
    toNat_sub_one hticks, toNat_add_one hticks', and_assoc]

/-- The first check. -/
theorem le_of_testTimeConvert (h : testTimeConvert f g ticks ms = .ok ()) (hms : 0 < ms.toNat) :
    ms.toNat - 1 ≤ (f ticks).toNat := by
  rw [← toNat_sub_one hms]
  exact UInt32.le_iff_toNat_le.mp (testTimeConvert_eq_ok_iff.mp h).1

theorem testTimeConversions_eq_ok :
    testTimeConversions f g rate = .ok () ↔ testTimeConvert f g rate 1000 = .ok () ∧
      testTimeConvert f g (rate * 100) 100000 = .ok () ∧
      testTimeConvert f g (rate / 100) 10 = .ok () := by
  unfold testTimeConversions
  cases testTimeConvert f g rate 1000 with
  | error msg => simp [bind, Except.bind]
  | ok _ =>
    cases testTimeConvert f g (rate * 100) 100000 with
    | error msg => simp [bind, Except.bind]
    | ok _ => simp [bind, Except.bind]

/-! ## The tick rates -/

/-- A hundred seconds and a hundredth of a second, in ticks. -/
theorem toNat_mul_hundred (rate : UInt32) : (rate * 100).toNat = rate.toNat * 100 % 2 ^ 32 :=
  UInt32.toNat_mul rate 100

theorem toNat_div_hundred (rate : UInt32) : (rate / 100).toNat = rate.toNat / 100 :=
  UInt32.toNat_div rate 100

theorem toNat_thousand : (1000 : UInt32).toNat = 1000 := rfl

/-- A hundredth of a second is `10` milliseconds, of which one may be missing. -/
def FineEnough (rate : UInt32) : Prop := 9 * rate.toNat ≤ 1000 * (rate.toNat / 100)

/-- **Conversions that are not off by a whole unit pass**, if a hundred seconds are in range and a
hundredth of a second is not too few ticks. -/
theorem pass_of_close (hpos : 0 < rate.toNat) (hfits : rate.toNat * 100 + 1 < 2 ^ 32)
    (hfine : FineEnough rate)
    (hback : ∀ ticks, ticks.toNat ≤ rate.toNat * 100 →
      (f ticks).toNat = ticks.toNat * 1000 / rate.toNat)
    (hthere : ∀ ms, ms.toNat ≤ 100000 → ms.toNat * rate.toNat < (g ms).toNat * 1000 + 1000 ∧
      (g ms).toNat * 1000 < ms.toNat * rate.toNat + 1000) :
    testTimeConversions f g rate = .ok () := by
  unfold FineEnough at hfine
  have hhundred : (rate * 100).toNat = rate.toNat * 100 := by
    rw [toNat_mul_hundred]
    exact Nat.mod_eq_of_lt (Nat.lt_of_succ_lt hfits)
  have hhundredth : (rate / 100).toNat = rate.toNat / 100 := toNat_div_hundred rate
  refine testTimeConversions_eq_ok.mpr ⟨?_, ?_, ?_⟩
  -- a second and a hundred seconds convert back exactly; a hundredth of a second may have lost a
  -- part of its ticks, and `FineEnough` says that it is a millisecond at most
  · obtain ⟨hlong, hshort⟩ := hthere 1000 (by decide)
    rw [toNat_thousand] at hlong hshort
    rw [testTimeConvert_eq_ok hpos (by omega) (by decide) (by decide), hback _ (by omega),
      toNat_thousand, Nat.mul_div_cancel_left _ hpos]
    omega
  · have hms : (100000 : UInt32).toNat = 100000 := rfl
    have hexact : rate.toNat * 100 * 1000 / rate.toNat = 100000 := by
      rw [Nat.mul_assoc, Nat.mul_div_cancel_left _ hpos]
    obtain ⟨hlong, hshort⟩ := hthere 100000 (by decide)
    rw [hms] at hlong hshort
    rw [testTimeConvert_eq_ok (by omega) (by omega) (by decide) (by decide), hback _ (by omega),
      hhundred, hms, hexact]
    omega
  · have hms : (10 : UInt32).toNat = 10 := rfl
    have hlower : 9 ≤ rate.toNat / 100 * 1000 / rate.toNat := by
      rw [Nat.le_div_iff_mul_le hpos]
      omega
    have hupper : rate.toNat / 100 * 1000 / rate.toNat < 11 := by
      rw [Nat.div_lt_iff_lt_mul hpos]
      omega
    obtain ⟨hlong, hshort⟩ := hthere 10 (by decide)
    rw [hms] at hlong hshort
    rw [testTimeConvert_eq_ok (by omega) (by omega) (by decide) (by decide), hback _ (by omega),
      hhundredth, hms]
    omega

/-- A hundred seconds are converted right only if their product does not wrap. -/
theorem le_of_hundred_seconds {r : ℕ} (h : 99999 * r ≤ r * 100 % 2 ^ 32 * 1000 % 2 ^ 32) :
    r ≤ 42949 := by
  have hproduct : r * 100 % 2 ^ 32 * 1000 % 2 ^ 32 = r * 100000 % 2 ^ 32 := by
    rw [Nat.mod_mul_mod, Nat.mul_assoc]
  have hwrapped : r * 100000 % 2 ^ 32 < 2 ^ 32 := Nat.mod_lt _ (by decide)
  rw [hproduct] at h
  -- what is left of the product is less than `2 ^ 32`, and at `42950` it has wrapped
  have hle : r ≤ 42950 := by omega
  rcases Nat.eq_or_lt_of_le hle with rfl | hlt
  · exact absurd h (by decide)
  · exact Nat.le_of_lt_succ hlt

/-- The ports that multiply in 32 bits. -/
theorem mulDiv_pass_iff (hrate : 0 < rate) :
    testTimeConversions (fun ticks => mulDiv ticks 1000 rate) (fun ms => mulDiv ms rate 1000) rate =
        .ok () ↔
      rate.toNat ≤ 42949 ∧ FineEnough rate := by
  have hpos : 0 < rate.toNat := UInt32.lt_iff_toNat_lt.mp hrate
  constructor
  · intro hpass
    obtain ⟨-, hlong, hshort⟩ := testTimeConversions_eq_ok.mp hpass
    -- the checks for conversions that are too short are enough to bound the rate
    have hlong := le_of_testTimeConvert hlong (by decide)
    have hshort := le_of_testTimeConvert hshort (by decide)
    rw [toNat_mulDiv, scaled, Nat.le_div_iff_mul_le hpos] at hlong hshort
    rw [toNat_mul_hundred] at hlong
    rw [toNat_div_hundred] at hshort
    have hfits : rate.toNat ≤ 42949 := le_of_hundred_seconds hlong
    have hproduct : rate.toNat / 100 * 1000 % 2 ^ 32 = 1000 * (rate.toNat / 100) := by omega
    rw [toNat_thousand, hproduct] at hshort
    exact ⟨hfits, hshort⟩
  · rintro ⟨hfits, hfine⟩
    refine pass_of_close hpos (by omega) hfine (fun ticks hticks => ?_) fun ms hms => ?_
    · exact toNat_mulDiv_of_lt (by rw [toNat_thousand]; omega)
    · rw [toNat_mulDiv_of_lt (lt_of_le_of_lt (Nat.mul_le_mul hms hfits) (by decide)),
        toNat_thousand]
      omega

/-- Where the product does not wrap, the ticks must not. -/
theorem le_of_hundred_seconds_ticks {r : ℕ} (h : 99999 * r ≤ r * 100 % 2 ^ 32 * 1000) :
    r ≤ 42949672 := by
  have hwrapped : r * 100 % 2 ^ 32 < 2 ^ 32 := Nat.mod_lt _ (by decide)
  by_contra hgt
  have hlost : r * 100 % 2 ^ 32 + 2 ^ 32 ≤ r * 100 := by omega
  omega

variable {kernel : Zephyr.TimeKernel}

/-- The port that converts in 64 bits. -/
theorem zephyr_pass_iff (hkernel : kernel.Documented rate) (hrate : 0 < rate) :
    testTimeConversions (Zephyr.posTimeTicksToMs kernel) (Zephyr.posTimeMsToTicks kernel) rate =
        .ok () ↔
      rate.toNat ≤ 42949672 ∧ FineEnough rate := by
  have hpos : 0 < rate.toNat := UInt32.lt_iff_toNat_lt.mp hrate
  constructor
  · intro hpass
    obtain ⟨-, hlong, hshort⟩ := testTimeConversions_eq_ok.mp hpass
    have hlong := le_of_testTimeConvert hlong (by decide)
    have hshort := le_of_testTimeConvert hshort (by decide)
    rw [Zephyr.toNat_posTimeTicksToMs hkernel] at hlong hshort
    have hlong : 99999 ≤ (rate * 100).toNat * 1000 / rate.toNat := hlong.trans (Nat.mod_le _ _)
    have hshort : 9 ≤ (rate / 100).toNat * 1000 / rate.toNat := hshort.trans (Nat.mod_le _ _)
    rw [Nat.le_div_iff_mul_le hpos] at hlong hshort
    rw [toNat_mul_hundred] at hlong
    rw [toNat_div_hundred, Nat.mul_comm _ 1000] at hshort
    exact ⟨le_of_hundred_seconds_ticks hlong, hshort⟩
  · rintro ⟨hfits, hfine⟩
    refine pass_of_close hpos (by omega) hfine (fun ticks hticks => ?_) fun ms hms => ?_
    · rw [Zephyr.toNat_posTimeTicksToMs hkernel]
      refine Nat.mod_eq_of_lt ?_
      rw [Nat.div_lt_iff_lt_mul hpos]
      omega
    · have hproduct : ms.toNat * rate.toNat ≤ 1000 * 4294967200 :=
        (Nat.mul_le_mul hms hfits).trans (by decide)
      have hless : ms.toNat * rate.toNat ⌈/⌉ 1000 ≤ 4294967200 :=
        (ceilDiv_le_iff_le_mul (by decide)).mpr hproduct
      have hlower : ms.toNat * rate.toNat ≤ 1000 * (ms.toNat * rate.toNat ⌈/⌉ 1000) :=
        (ceilDiv_le_iff_le_mul (by decide)).mp (Nat.le_refl _)
      have hupper : (ms.toNat * rate.toNat ⌈/⌉ 1000) * 1000 ≤ ms.toNat * rate.toNat + 999 :=
        Nat.div_mul_le_self (ms.toNat * rate.toNat + 999) 1000
      rw [Zephyr.toNat_posTimeMsToTicks hkernel,
        Nat.mod_eq_of_lt (Nat.lt_of_le_of_lt hless (by decide))]
      omega

/-- **The tick rates** at which the test passes. -/
theorem conversions_pass_iff (hkernel : kernel.Documented rate) (hrate : 0 < rate) :
    (∀ port : TickPort,
      testTimeConversions (fun ticks => port.ticksToMs rate ticks)
          (fun ms => port.msToTicks rate ms) rate = .ok () ↔
        rate.toNat ≤ 42949 ∧ FineEnough rate) ∧
    (testTimeConversions (Zephyr.posTimeTicksToMs kernel) (Zephyr.posTimeMsToTicks kernel) rate =
        .ok () ↔
      rate.toNat ≤ 42949672 ∧ FineEnough rate) := by
  refine ⟨fun port => ?_, zephyr_pass_iff hkernel hrate⟩
  simp only [msToTicks_eq, ticksToMs_eq]
  exact mulDiv_pass_iff hrate

/-- At 1000 ticks a second the test passes everywhere, at 150 nowhere, and at 100000 only on
Zephyr. -/
theorem conversions_pass_iff_rates :
    ((∀ port : TickPort,
        testTimeConversions (fun ticks => port.ticksToMs 1000 ticks)
            (fun ms => port.msToTicks 1000 ms) 1000 = .ok () ↔
          1000 ≤ 42949 ∧ FineEnough 1000) ∧
      (testTimeConversions (Zephyr.posTimeTicksToMs (Zephyr.exactTimeKernel 1000))
          (Zephyr.posTimeMsToTicks (Zephyr.exactTimeKernel 1000)) 1000 = .ok () ↔
        1000 ≤ 42949672 ∧ FineEnough 1000)) ∧
    FineEnough 1000 ∧ ¬FineEnough 150 ∧ FineEnough 100000 :=
  ⟨conversions_pass_iff (Zephyr.exactTimeKernel_documented 1000) (by decide),
    by unfold FineEnough; decide, by unfold FineEnough; decide, by unfold FineEnough; decide⟩

end Poski.Programs.TimerTest
