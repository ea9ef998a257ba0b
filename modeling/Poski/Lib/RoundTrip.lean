import Mathlib.Algebra.Order.Floor.Div
import Mathlib.Order.GaloisConnection.Basic
import Poski.Lib.ScaledCounter

/-!
# Scaling There and Back

A number is scaled by `a / b` and back by `b / a`. If both ways round down, nothing is gained. If
one rounds up and the other down, they are the two sides of a Galois connection, and what is got
back is off to the one side or to the other.

- `floor_floor_eq_iff` : what is kept if both ways round down
- `gc_ceil_floor` : the connection
- `floor_ceil_eq_iff`, `ceil_floor_eq_iff` : what is kept if one way rounds up
-/

namespace Poski.Lib

variable {a b : ℕ}

/-- Rounded down twice. -/
theorem floor_floor_le (ha : 0 < a) (x : ℕ) : x * a / b * b / a ≤ x :=
  calc x * a / b * b / a ≤ x * a / a := Nat.div_le_div_right (Nat.div_mul_le_self _ _)
    _ = x := Nat.mul_div_cancel x ha

theorem floor_floor_eq_iff (ha : 0 < a) {x : ℕ} : x * a / b * b / a = x ↔ b ∣ x * a := by
  rw [← le_div_mul_iff, ← Nat.le_div_iff_mul_le ha]
  exact ⟨fun heq => heq.ge, fun hge => Nat.le_antisymm (floor_floor_le ha x) hge⟩

/-- To scale up and round up, and to scale down and round down. -/
theorem gc_ceil_floor (ha : 0 < a) (hb : 0 < b) :
    GaloisConnection (fun x => x * a ⌈/⌉ b) (fun y => y * b / a) := by
  intro x y
  show x * a ⌈/⌉ b ≤ y ↔ x ≤ y * b / a
  rw [ceilDiv_le_iff_le_mul hb, Nat.le_div_iff_mul_le ha, Nat.mul_comm b y]

/-- A number that is rounded up and back down. -/
theorem floor_ceil_eq_iff (ha : 0 < a) (hb : 0 < b) {x : ℕ} :
    (x * a ⌈/⌉ b) * b / a = x ↔ (x * a ⌈/⌉ b) * b < (x + 1) * a := by
  have hle : x ≤ (x * a ⌈/⌉ b) * b / a := (gc_ceil_floor ha hb).le_u_l x
  rw [← Nat.div_lt_iff_lt_mul ha, Nat.lt_succ_iff]
  exact ⟨fun heq => heq.le, fun hge => Nat.le_antisymm hge hle⟩

/-- A number that is rounded down and back up. -/
theorem ceil_floor_eq_iff (ha : 0 < a) (hb : 0 < b) {y : ℕ} :
    y * b / a * a ⌈/⌉ b = y ↔ y * b % a < b := by
  have hle : y * b / a * a ⌈/⌉ b ≤ y := (gc_ceil_floor ha hb).l_u_le y
  have hsplit : y * b / a * a + y * b % a = y * b := Nat.div_add_mod' (y * b) a
  cases y with
  | zero => simp [hb]
  | succ y =>
    -- it is not as little as `y`
    have hless : (y + 1) * b / a * a ⌈/⌉ b ≤ y ↔ (y + 1) * b / a * a ≤ y * b := by
      rw [ceilDiv_le_iff_le_mul hb, Nat.mul_comm b y]
    have hsucc : (y + 1) * b = y * b + b := Nat.succ_mul y b
    omega

end Poski.Lib
