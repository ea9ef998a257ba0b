import Poski.Lib.RoundTrip
import Poski.Ports.TimeConversion
import Poski.Zephyr.Time

/-!
# Times There and Back

A time in milliseconds is converted to ticks and back, or one in ticks to milliseconds and back.
FreeRTOS and RT-Thread round down both times. Zephyr rounds ticks up and milliseconds down.

- `mulDiv_mulDiv_le`, `mulDiv_mulDiv_iff` : the ports that round down
- `zephyr_ms_iff`, `zephyr_ticks_iff` : the port that does not
- `time_round_trips` : which times are kept
-/

namespace Poski.Ports

open Lib

variable {x rate : UInt32}

/-! ## Rounded down -/

variable {a b : UInt32}

/-- The way back does not wrap. -/
theorem toNat_mulDiv_mulDiv (x a b : UInt32) :
    (mulDiv (mulDiv x a b) b a).toNat =
      x.toNat * a.toNat % 2 ^ 32 / b.toNat * b.toNat / a.toNat := by
  have hthere : (mulDiv x a b).toNat = x.toNat * a.toNat % 2 ^ 32 / b.toNat := toNat_mulDiv x a b
  have hfits : (mulDiv x a b).toNat * b.toNat < 2 ^ 32 := by
    rw [hthere]
    exact (Nat.div_mul_le_self _ _).trans_lt (Nat.mod_lt _ (by decide))
  rw [toNat_mulDiv_of_lt hfits, hthere]

theorem mulDiv_mulDiv_le (ha : 0 < a) : mulDiv (mulDiv x a b) b a ≤ x := by
  have hpos : 0 < a.toNat := UInt32.lt_iff_toNat_lt.mp ha
  rw [UInt32.le_iff_toNat_le, toNat_mulDiv_mulDiv]
  calc x.toNat * a.toNat % 2 ^ 32 / b.toNat * b.toNat / a.toNat
      ≤ x.toNat * a.toNat / b.toNat * b.toNat / a.toNat :=
        Nat.div_le_div_right (Nat.mul_le_mul_right _ (Nat.div_le_div_right (Nat.mod_le _ _)))
    _ ≤ x.toNat := floor_floor_le hpos x.toNat

/-- **Kept** is what does not wrap and is not rounded. -/
theorem mulDiv_mulDiv_iff (ha : 0 < a) :
    mulDiv (mulDiv x a b) b a = x ↔
      x.toNat * a.toNat < 2 ^ 32 ∧ b.toNat ∣ x.toNat * a.toNat := by
  have hpos : 0 < a.toNat := UInt32.lt_iff_toNat_lt.mp ha
  rw [← UInt32.toNat_inj, toNat_mulDiv_mulDiv]
  rcases Nat.lt_or_ge (x.toNat * a.toNat) (2 ^ 32) with hlt | hge
  · rw [Nat.mod_eq_of_lt hlt, floor_floor_eq_iff hpos, and_iff_right hlt]
  · refine iff_of_false (Nat.ne_of_lt ?_) fun hkept => Nat.not_lt.mpr hge hkept.1
    rw [Nat.div_lt_iff_lt_mul hpos]
    calc x.toNat * a.toNat % 2 ^ 32 / b.toNat * b.toNat
        ≤ x.toNat * a.toNat % 2 ^ 32 := Nat.div_mul_le_self _ _
      _ < 2 ^ 32 := Nat.mod_lt _ (by decide)
      _ ≤ x.toNat * a.toNat := hge

/-! ## Rounded up and down -/

variable {kernel : Zephyr.TimeKernel}

/-- Milliseconds, to ticks and back. -/
theorem zephyr_le_ms (hkernel : kernel.Documented rate) (hrate : 0 < rate)
    (hticks : x.toNat * rate.toNat ⌈/⌉ 1000 < 2 ^ 32)
    (hms : (x.toNat * rate.toNat ⌈/⌉ 1000) * 1000 / rate.toNat < 2 ^ 32) :
    x ≤ Zephyr.posTimeTicksToMs kernel (Zephyr.posTimeMsToTicks kernel x) := by
  have hpos : 0 < rate.toNat := UInt32.lt_iff_toNat_lt.mp hrate
  rw [UInt32.le_iff_toNat_le, Zephyr.toNat_posTimeTicksToMs hkernel,
    Zephyr.toNat_posTimeMsToTicks hkernel, Nat.mod_eq_of_lt hticks, Nat.mod_eq_of_lt hms]
  exact (gc_ceil_floor hpos (by decide)).le_u_l x.toNat

/-- **Kept** are the milliseconds whose ticks are in range and end before the next one. -/
theorem zephyr_ms_iff (hkernel : kernel.Documented rate) (hrate : 0 < rate) :
    Zephyr.posTimeTicksToMs kernel (Zephyr.posTimeMsToTicks kernel x) = x ↔
      x.toNat * rate.toNat ⌈/⌉ 1000 < 2 ^ 32 ∧
      (x.toNat * rate.toNat ⌈/⌉ 1000) * 1000 < (x.toNat + 1) * rate.toNat := by
  have hpos : 0 < rate.toNat := UInt32.lt_iff_toNat_lt.mp hrate
  have hx : x.toNat < 2 ^ 32 := x.toNat_lt
  rw [← UInt32.toNat_inj, Zephyr.toNat_posTimeTicksToMs hkernel,
    Zephyr.toNat_posTimeMsToTicks hkernel]
  rcases Nat.lt_or_ge (x.toNat * rate.toNat ⌈/⌉ 1000) (2 ^ 32) with hlt | hge
  · rw [Nat.mod_eq_of_lt hlt, and_iff_right hlt, ← floor_ceil_eq_iff hpos (by decide)]
    have hgained : x.toNat ≤ (x.toNat * rate.toNat ⌈/⌉ 1000) * 1000 / rate.toNat :=
      (gc_ceil_floor hpos (by decide)).le_u_l x.toNat
    have hclose : (x.toNat * rate.toNat ⌈/⌉ 1000) * 1000 / rate.toNat < x.toNat + 1000 := by
      rw [Nat.div_lt_iff_lt_mul hpos, Nat.add_mul]
      have hup : (x.toNat * rate.toNat ⌈/⌉ 1000) * 1000 ≤ x.toNat * rate.toNat + 999 :=
        Nat.div_mul_le_self (x.toNat * rate.toNat + 999) 1000
      omega
    -- a wrap would not lead to where it has come from
    omega
  · refine iff_of_false (Nat.ne_of_lt ?_) fun hkept => Nat.not_lt.mpr hge hkept.1
    have hwrapped : (x.toNat * rate.toNat ⌈/⌉ 1000) % 2 ^ 32 < x.toNat * rate.toNat ⌈/⌉ 1000 :=
      (Nat.mod_lt _ (by decide)).trans_le hge
    have hshort : (x.toNat * rate.toNat ⌈/⌉ 1000) % 2 ^ 32 * 1000 < x.toNat * rate.toNat := by
      rw [Nat.mul_comm _ 1000]
      exact lt_of_not_ge fun hle =>
        Nat.not_le.mpr hwrapped ((ceilDiv_le_iff_le_mul (by decide)).mpr hle)
    exact (Nat.mod_le _ _).trans_lt ((Nat.div_lt_iff_lt_mul hpos).mpr hshort)

theorem zephyr_ticks_le :
    (x.toNat * 1000 / rate.toNat % 2 ^ 32) * rate.toNat ⌈/⌉ 1000 ≤ x.toNat := by
  rw [ceilDiv_le_iff_le_mul (by decide), Nat.mul_comm 1000]
  calc x.toNat * 1000 / rate.toNat % 2 ^ 32 * rate.toNat
      ≤ x.toNat * 1000 / rate.toNat * rate.toNat := Nat.mul_le_mul_right _ (Nat.mod_le _ _)
    _ ≤ x.toNat * 1000 := Nat.div_mul_le_self _ _

/-- The way back does not wrap. -/
theorem toNat_zephyr_ticks (hkernel : kernel.Documented rate) (x : UInt32) :
    (Zephyr.posTimeMsToTicks kernel (Zephyr.posTimeTicksToMs kernel x)).toNat =
      (x.toNat * 1000 / rate.toNat % 2 ^ 32) * rate.toNat ⌈/⌉ 1000 := by
  rw [Zephyr.toNat_posTimeMsToTicks hkernel, Zephyr.toNat_posTimeTicksToMs hkernel]
  exact Nat.mod_eq_of_lt ((zephyr_ticks_le).trans_lt x.toNat_lt)

/-- **Kept** are the ticks whose milliseconds are in range and leave less than one behind. -/
theorem zephyr_ticks_iff (hkernel : kernel.Documented rate) (hrate : 0 < rate) :
    Zephyr.posTimeMsToTicks kernel (Zephyr.posTimeTicksToMs kernel x) = x ↔
      x.toNat * 1000 / rate.toNat < 2 ^ 32 ∧ x.toNat * 1000 % rate.toNat < 1000 := by
  have hpos : 0 < rate.toNat := UInt32.lt_iff_toNat_lt.mp hrate
  rw [← UInt32.toNat_inj, toNat_zephyr_ticks hkernel]
  rcases Nat.lt_or_ge (x.toNat * 1000 / rate.toNat) (2 ^ 32) with hlt | hge
  · rw [Nat.mod_eq_of_lt hlt, and_iff_right hlt]
    exact ceil_floor_eq_iff hpos (by decide)
  · refine iff_of_false (Nat.ne_of_lt ?_) fun hkept => Nat.not_lt.mpr hge hkept.1
    -- what is lost by the wrap is much more than a tick
    have hwrap : x.toNat * 1000 / rate.toNat % 2 ^ 32 + 2 ^ 32 ≤ x.toNat * 1000 / rate.toNat := by
      omega
    have hlost : (x.toNat * 1000 / rate.toNat % 2 ^ 32 + 2 ^ 32) * rate.toNat ≤ x.toNat * 1000 :=
      (Nat.mul_le_mul_right _ hwrap).trans (Nat.div_mul_le_self _ _)
    rw [Nat.add_mul] at hlost
    have hless : (x.toNat * 1000 / rate.toNat % 2 ^ 32) * rate.toNat ⌈/⌉ 1000 ≤ x.toNat - 1 := by
      rw [ceilDiv_le_iff_le_mul (by decide)]
      omega
    omega

theorem zephyr_le_ticks (hkernel : kernel.Documented rate) :
    Zephyr.posTimeMsToTicks kernel (Zephyr.posTimeTicksToMs kernel x) ≤ x := by
  rw [UInt32.le_iff_toNat_le, toNat_zephyr_ticks hkernel]
  exact zephyr_ticks_le

/-! ## All of them -/

/-- **There and back.** On FreeRTOS and RT-Thread no time gets longer, and a time is kept exactly
if the first product fits into 32 bits and nothing is rounded. On Zephyr milliseconds do not get
shorter as long as the converted values are in range, and are kept exactly if the ticks are, and
end before the next millisecond; ticks do not get longer, and are kept exactly if the
milliseconds are in range and less than a millisecond has been left out. -/
theorem time_round_trips (port : TickPort) (hkernel : kernel.Documented rate) (hrate : 0 < rate)
    (x : UInt32) :
    (port.ticksToMs rate (port.msToTicks rate x) ≤ x ∧
      (port.ticksToMs rate (port.msToTicks rate x) = x ↔
        x.toNat * rate.toNat < 2 ^ 32 ∧ 1000 ∣ x.toNat * rate.toNat)) ∧
    (port.msToTicks rate (port.ticksToMs rate x) ≤ x ∧
      (port.msToTicks rate (port.ticksToMs rate x) = x ↔
        x.toNat * 1000 < 2 ^ 32 ∧ rate.toNat ∣ x.toNat * 1000)) ∧
    ((x.toNat * rate.toNat ⌈/⌉ 1000 < 2 ^ 32 →
        (x.toNat * rate.toNat ⌈/⌉ 1000) * 1000 / rate.toNat < 2 ^ 32 →
        x ≤ Zephyr.posTimeTicksToMs kernel (Zephyr.posTimeMsToTicks kernel x)) ∧
      (Zephyr.posTimeTicksToMs kernel (Zephyr.posTimeMsToTicks kernel x) = x ↔
        x.toNat * rate.toNat ⌈/⌉ 1000 < 2 ^ 32 ∧
        (x.toNat * rate.toNat ⌈/⌉ 1000) * 1000 < (x.toNat + 1) * rate.toNat)) ∧
    (Zephyr.posTimeMsToTicks kernel (Zephyr.posTimeTicksToMs kernel x) ≤ x ∧
      (Zephyr.posTimeMsToTicks kernel (Zephyr.posTimeTicksToMs kernel x) = x ↔
        x.toNat * 1000 / rate.toNat < 2 ^ 32 ∧ x.toNat * 1000 % rate.toNat < 1000)) := by
  have hthousand : (0 : UInt32) < 1000 := by decide
  simp only [msToTicks_eq, ticksToMs_eq]
  exact ⟨⟨mulDiv_mulDiv_le hrate, mulDiv_mulDiv_iff hrate⟩,
    ⟨mulDiv_mulDiv_le hthousand, mulDiv_mulDiv_iff hthousand⟩,
    ⟨zephyr_le_ms hkernel hrate, zephyr_ms_iff hkernel hrate⟩, zephyr_le_ticks hkernel,
    zephyr_ticks_iff hkernel hrate⟩

/-- At 100 ticks a second `15` milliseconds become `10` on FreeRTOS, and `20` on Zephyr. -/
theorem time_round_trips_hundred :
    let kernel := Zephyr.exactTimeKernel 100
    TickPort.freeRtos.ticksToMs 100 (TickPort.freeRtos.msToTicks 100 15) = 10 ∧
    Zephyr.posTimeTicksToMs kernel (Zephyr.posTimeMsToTicks kernel 15) = 20 ∧
    (TickPort.freeRtos.ticksToMs 100 (TickPort.freeRtos.msToTicks 100 15) ≤ 15 ∧
      (TickPort.freeRtos.ticksToMs 100 (TickPort.freeRtos.msToTicks 100 15) = 15 ↔
        1500 < 2 ^ 32 ∧ 1000 ∣ 1500)) ∧
    (Zephyr.posTimeMsToTicks kernel (Zephyr.posTimeTicksToMs kernel 15) ≤ 15 ∧
      (Zephyr.posTimeMsToTicks kernel (Zephyr.posTimeTicksToMs kernel 15) = 15 ↔
        15000 / 100 < 2 ^ 32 ∧ 15000 % 100 < 1000)) := by
  intro kernel
  have hall := time_round_trips .freeRtos (Zephyr.exactTimeKernel_documented 100) (by decide) 15
  exact ⟨by decide, by decide, hall.1, hall.2.2.2⟩

end Poski.Ports
