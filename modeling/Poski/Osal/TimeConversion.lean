import Poski.Lib.ScaledCounter
import Poski.Osal.Types

/-!
# Arithmetic on Times

The ports that count ticks convert them as `(x * mul) / div`, on `uint32_t`. The product is
computed before the division, and reduced modulo `2 ^ 32`. How many ticks there are until some
tick is told by a comparison and a difference, of which only the difference is right modulo
`2 ^ 32`.
-/

namespace Poski

open Lib

/-! ## Conversions -/

/-- `(x * mul) / div`. -/
def mulDiv (x mul div : UInt32) : UInt32 := x * mul / div

theorem toNat_mulDiv (x mul div : UInt32) :
    (mulDiv x mul div).toNat = scaled (2 ^ 32) mul.toNat div.toNat x.toNat := by
  rw [mulDiv, UInt32.toNat_div, UInt32.toNat_mul, scaled]

/-- A converted time is less than one unit away from the exact value, if that is a 32-bit
number at all. -/
def ConvertsWell (result x mul div : UInt32) : Prop :=
  ((x.toNat * mul.toNat : ℕ) : ℚ) / div.toNat < 2 ^ 32 →
    |(result.toNat : ℚ) - ((x.toNat * mul.toNat : ℕ) : ℚ) / div.toNat| < 1

/-- **A conversion is right exactly if** its product does not wrap, or the exact value is too
large. -/
theorem mulDiv_convertsWell_iff {x mul div : UInt32} (hdiv : 0 < div) :
    ConvertsWell (mulDiv x mul div) x mul div ↔
      x.toNat * mul.toNat < 2 ^ 32 ∨ div.toNat * 2 ^ 32 ≤ x.toNat * mul.toNat := by
  have hpos : 0 < div.toNat := by simpa [UInt32.lt_iff_toNat_lt] using hdiv
  rw [ConvertsWell, div_lt_two_pow_iff hpos, toNat_mulDiv, scaled_close_iff hpos div.toNat_lt.le,
    ← Nat.not_lt, ← imp_iff_or_not]

/-- A time that is converted without a wrap is never rounded up. -/
theorem toNat_mulDiv_of_lt {x mul div : UInt32} (hfits : x.toNat * mul.toNat < 2 ^ 32) :
    (mulDiv x mul div).toNat = x.toNat * mul.toNat / div.toNat := by
  rw [toNat_mulDiv, scaled, Nat.mod_eq_of_lt hfits]

/-! ## Ticks ahead -/

variable {now d : UInt32}

/-- `if (exp > now) rt = exp - now; else rt = 0;`. -/
def ticksUntil (exp now : UInt32) : UInt32 := if now < exp then exp - now else 0

theorem toNat_ticksUntil (exp now : UInt32) :
    (ticksUntil exp now).toNat = exp.toNat - now.toNat := by
  unfold ticksUntil
  split
  · rename_i hlt
    exact UInt32.toNat_sub_of_le _ _ (UInt32.le_of_lt hlt)
  · rename_i hle
    have hexp : exp.toNat ≤ now.toNat := UInt32.le_iff_toNat_le.mp (UInt32.not_lt.mp hle)
    rw [UInt32.toNat_zero, Nat.sub_eq_zero_of_le hexp]

/-- A tick that lies ahead is seen there unless it is one beyond the wrap. -/
theorem ticksUntil_add_iff : ticksUntil (now + d) now = d ↔ now.toNat + d.toNat < 2 ^ 32 := by
  have hnow := now.toNat_lt
  rw [← UInt32.toNat_inj, toNat_ticksUntil, UInt32.toNat_add]
  rcases Nat.lt_or_ge (now.toNat + d.toNat) (2 ^ 32) with hlt | hge
  · rw [Nat.mod_eq_of_lt hlt]
    omega
  · rw [Nat.mod_eq_sub_mod hge]
    omega

/-- A tick that lies behind is seen there unless it is one before the wrap. -/
theorem ticksUntil_sub_iff : ticksUntil (now - d) now = 0 ↔ d ≤ now := by
  have hnow := now.toNat_lt
  have hd := d.toNat_lt
  rw [← UInt32.toNat_inj, toNat_ticksUntil, UInt32.toNat_sub, UInt32.toNat_zero,
    UInt32.le_iff_toNat_le]
  omega

end Poski
