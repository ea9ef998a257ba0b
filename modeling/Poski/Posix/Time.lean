import Mathlib.Data.Int.Notation
import Mathlib.Data.Nat.Notation

/-!
# Times on POSIX

`os_time.h` of the POSIX port (where it is not `__APPLE__`): `pos_time_t` is a `uint32_t`
that counts milliseconds. `time_t` and the nanoseconds of a `timespec` are 64-bit integers
there. They are modelled by unbounded ones, which is the same as long as no addition overflows
(`ClockReading.deadline_lt`).
-/

namespace Poski.Posix

/-- `POS_TIME_FOREVER`, that is `INT32_MAX`. -/
def POS_TIME_FOREVER : UInt32 := 0x7FFFFFFF

def POS_TIME_NO_WAIT : UInt32 := 0

/-- `struct timespec`. -/
structure Timespec where
  tvSec : ℤ
  tvNsec : ℤ
  deriving DecidableEq, Repr

namespace Timespec

/-- The time that a `timespec` denotes, in nanoseconds. -/
def toNs (ts : Timespec) : ℤ := ts.tvSec * 1000000000 + ts.tvNsec

/-- What native calls take for a time: the nanoseconds are below a second. -/
def Valid (ts : Timespec) : Prop := 0 ≤ ts.tvNsec ∧ ts.tvNsec < 1000000000

instance (ts : Timespec) : Decidable ts.Valid :=
  inferInstanceAs (Decidable (0 ≤ ts.tvNsec ∧ ts.tvNsec < 1000000000))

/-- `ts.tv_sec += timeout / 1000`. -/
def addSec (ts : Timespec) (timeout : UInt32) : Timespec :=
  { ts with tvSec := ts.tvSec + (timeout / 1000).toNat }

/-- `ts.tv_nsec += (timeout % 1000) * 1000000`; the product is a `uint32_t`. -/
def addNsec (ts : Timespec) (timeout : UInt32) : Timespec :=
  { ts with tvNsec := ts.tvNsec + (timeout % 1000 * 1000000).toNat }

/-- The 32-bit product does not wrap. -/
theorem toNat_mod_mul (timeout : UInt32) :
    (timeout % 1000 * 1000000).toNat = timeout.toNat % 1000 * 1000000 := by
  have hlt := Nat.mod_lt timeout.toNat (by decide : 0 < 1000)
  rw [UInt32.toNat_mul, UInt32.toNat_mod]
  show timeout.toNat % 1000 * 1000000 % 2 ^ 32 = _
  omega

theorem toNat_div_thousand (timeout : UInt32) :
    (timeout / 1000).toNat = timeout.toNat / 1000 := UInt32.toNat_div timeout 1000

/-- **The two additions** add the timeout, in milliseconds. -/
theorem toNs_addSec_addNsec (ts : Timespec) (timeout : UInt32) :
    ((ts.addSec timeout).addNsec timeout).toNs = ts.toNs + timeout.toNat * 1000000 := by
  have hsplit := Nat.div_add_mod timeout.toNat 1000
  simp only [toNs, addNsec, addSec, toNat_mod_mul, toNat_div_thousand]
  omega

end Timespec

/-- What `clock_gettime` stores: nanoseconds below a second, and seconds to which the
`4294967` of the longest timeout can be added in a 64-bit `time_t`. -/
structure ClockReading where
  time : Timespec
  nsec_nonneg : 0 ≤ time.tvNsec
  nsec_lt : time.tvNsec < 1000000000
  sec_lt : time.tvSec + 4294967 < 9223372036854775808

instance : Inhabited ClockReading := ⟨⟨⟨0, 0⟩, Int.le_refl 0, by decide, by decide⟩⟩

/-- Neither addition leaves the 64 bits of its field. -/
theorem ClockReading.deadline_lt (reading : ClockReading) (timeout : UInt32) :
    ((reading.time.addSec timeout).addNsec timeout).tvSec < 9223372036854775808 ∧
      ((reading.time.addSec timeout).addNsec timeout).tvNsec < 9223372036854775808 := by
  have hsec := reading.sec_lt
  have hnsec := reading.nsec_lt
  have htimeout := timeout.toNat_lt
  simp only [Timespec.addNsec, Timespec.addSec, Timespec.toNat_mod_mul, Timespec.toNat_div_thousand]
  omega

end Poski.Posix
