import Mathlib.Algebra.Order.Floor.Div
import Mathlib.Data.Nat.Notation

/-!
# Times on Zephyr

`os_time.c` of the Zephyr port. The two conversions of the kernel are parameters, and `rate` is
`POS_TICKS_PER_SEC`, that is `CONFIG_SYS_CLOCK_TICKS_PER_SEC`.

- `TimeKernel.Documented` : what is relied on
-/

namespace Poski.Zephyr

/-- The native conversions. -/
structure TimeKernel where
  kMsToTicksCeil32 : UInt32 → UInt32
  kTicksToMsFloor32 : UInt32 → UInt32

/-- The documented behaviour: the one rounds up and the other one down. The result is computed in
64 bits, of which the lower 32 are handed out. -/
structure TimeKernel.Documented (kernel : TimeKernel) (rate : UInt32) : Prop where
  ceil : ∀ ms,
    (kernel.kMsToTicksCeil32 ms).toNat = (ms.toNat * rate.toNat ⌈/⌉ (1000 : ℕ)) % 2 ^ 32
  floor : ∀ ticks,
    (kernel.kTicksToMsFloor32 ticks).toNat = ticks.toNat * 1000 / rate.toNat % 2 ^ 32

/-! ## os_time.c -/

variable (kernel : TimeKernel)

/-- `pos_time_ms_to_ticks`. -/
def posTimeMsToTicks (ms : UInt32) : UInt32 := kernel.kMsToTicksCeil32 ms

/-- `pos_time_ticks_to_ms`. -/
def posTimeTicksToMs (ticks : UInt32) : UInt32 := kernel.kTicksToMsFloor32 ticks

variable {kernel} {rate : UInt32}

theorem toNat_posTimeMsToTicks (hdoc : kernel.Documented rate) (ms : UInt32) :
    (posTimeMsToTicks kernel ms).toNat = (ms.toNat * rate.toNat ⌈/⌉ 1000) % 2 ^ 32 :=
  hdoc.ceil ms

theorem toNat_posTimeTicksToMs (hdoc : kernel.Documented rate) (ticks : UInt32) :
    (posTimeTicksToMs kernel ticks).toNat = ticks.toNat * 1000 / rate.toNat % 2 ^ 32 :=
  hdoc.floor ticks

/-! ## A kernel -/

/-- A kernel with that many ticks in a second. -/
def exactTimeKernel (rate : UInt32) : TimeKernel where
  kMsToTicksCeil32 ms := .ofNat (ms.toNat * rate.toNat ⌈/⌉ (1000 : ℕ))
  kTicksToMsFloor32 ticks := .ofNat (ticks.toNat * 1000 / rate.toNat)

theorem exactTimeKernel_documented (rate : UInt32) : (exactTimeKernel rate).Documented rate where
  ceil _ := UInt32.toNat_ofNat'
  floor _ := UInt32.toNat_ofNat'

end Poski.Zephyr
