import Mathlib.Algebra.Order.Field.Basic
import Mathlib.Algebra.Order.Field.Rat

/-!
# Counts in Other Units

A count `x` is turned into other units by `x * a / b`, where the product is computed modulo
some `m`, a power of two for a machine word. The quotient is right as long as the product does
not wrap, and no longer; differences of quotients survive longer, since the quotients are
themselves compared modulo `m`.

- `scaled_close_iff` : when a converted count is the exact value, rounded
- `scaled_elapsed_iff` : when the difference of two converted counts is
- `le_div_mul_iff` : when nothing is cut off
-/

namespace Poski.Lib

variable {m a b x t d p q : ℕ}

/-- `x * a / b`, where the product is reduced modulo `m`. -/
def scaled (m a b x : ℕ) : ℕ := x * a % m / b

/-! ## Quotients compared with exact ones -/

/-- The distance of `q` from an exact quotient, in terms of products. -/
theorem abs_sub_div (hb : 0 < b) :
    |(q : ℚ) - (p : ℚ) / b| = |(b : ℚ) * q - p| / b := by
  have hpos : (0 : ℚ) < b := by exact_mod_cast hb
  have hquotient : (q : ℚ) - p / b = (b * q - p) / b := by
    rw [sub_div, mul_div_cancel_left₀ _ hpos.ne']
  rw [hquotient, abs_div, abs_of_pos hpos]

theorem abs_sub_div_lt_one_iff (hb : 0 < b) :
    |(q : ℚ) - (p : ℚ) / b| < 1 ↔ p < b * q + b ∧ b * q < p + b := by
  have hpos : (0 : ℚ) < b := by exact_mod_cast hb
  rw [abs_sub_div hb, div_lt_one hpos, abs_lt, neg_lt_sub_iff_lt_add', sub_lt_iff_lt_add']
  norm_cast

theorem abs_sub_div_le_one_iff (hb : 0 < b) :
    |(q : ℚ) - (p : ℚ) / b| ≤ 1 ↔ p ≤ b * q + b ∧ b * q ≤ p + b := by
  have hpos : (0 : ℚ) < b := by exact_mod_cast hb
  rw [abs_sub_div hb, div_le_one hpos, abs_le, neg_le_sub_iff_le_add', sub_le_iff_le_add']
  norm_cast
  rw [Nat.add_comm b]

/-- An exact quotient is small if the dividend is. -/
theorem div_lt_two_pow_iff {n : ℕ} (hb : 0 < b) : (p : ℚ) / b < 2 ^ n ↔ p < b * 2 ^ n := by
  have hpos : (0 : ℚ) < b := by exact_mod_cast hb
  rw [div_lt_iff₀' hpos]
  norm_cast

/-- **A converted count** is less than one away from the exact value exactly if the product
does not wrap. -/
theorem scaled_close_iff (hb : 0 < b) (hbm : b ≤ m) :
    |(scaled m a b x : ℚ) - ((x * a : ℕ) : ℚ) / b| < 1 ↔ x * a < m := by
  rw [abs_sub_div_lt_one_iff hb, scaled]
  generalize x * a = p
  have hlow : b * (p % m / b) ≤ p % m := Nat.mul_div_le _ _
  have hhigh : p % m < b * (p % m / b) + b := Nat.lt_mul_div_succ _ hb
  constructor
  · intro hclose
    by_contra hwraps
    -- what a wrap loses is more than a quotient of one
    have hlost : p % m ≤ p - m := by
      rw [Nat.mod_eq_sub_mod (Nat.le_of_not_lt hwraps)]
      exact Nat.mod_le _ _
    omega
  · intro hfits
    rw [Nat.mod_eq_of_lt hfits] at hlow hhigh ⊢
    omega

/-- A quotient that is multiplied again gives the dividend back exactly if nothing is cut
off. -/
theorem le_div_mul_iff : p ≤ p / b * b ↔ b ∣ p := by
  constructor
  · intro hle
    exact ⟨p / b, by rw [Nat.mul_comm]; exact Nat.le_antisymm hle (Nat.div_mul_le_self p b)⟩
  · intro hdvd
    rw [Nat.div_mul_cancel hdvd]

/-! ## Differences of converted counts -/

/-- `v - u` modulo `m`. -/
def elapsed (m u v : ℕ) : ℕ := (v + (m - u)) % m

theorem elapsed_of_le {u v : ℕ} (huv : u ≤ v) (hv : v < m) : elapsed m u v = v - u := by
  have hsum : v + (m - u) = v - u + m := by omega
  rw [elapsed, hsum, Nat.add_mod_right, Nat.mod_eq_of_lt (by omega)]

theorem elapsed_of_lt {u v : ℕ} (hvu : v < u) (hu : u ≤ m) : elapsed m u v = v + m - u := by
  rw [elapsed, Nat.mod_eq_of_lt (by omega)]
  omega

/-- The elapsed count that is got from converted counts is right: `product` is the product at
the start, reduced modulo `m`, and `exact` the product that the elapsed count makes. It wraps
`k` times. Either it does not wrap; or it wraps `b` times, and so do the quotients, once; or,
where `b` is so large that a quotient counts for nothing, once or `b - 1` times. -/
def KeepsElapsed (m b product exact : ℕ) : Prop :=
  let k := (product + exact) / m
  let remainder := (product + exact) % m % b
  k = 0 ∨
  (k = b ∧ exact + product % b < k * m) ∨
  (k = 1 ∧ m + remainder ≤ b + product % b) ∨
  (k + 1 = b ∧ exact + product % b < k * m ∧ m + product % b ≤ b + remainder)

/-- With a divisor of at most half the modulus only the first two cases are possible. -/
theorem keepsElapsed_iff {product exact : ℕ} (hb : 0 < b) (hbm : 2 * b ≤ m) :
    KeepsElapsed m b product exact ↔
      (product + exact) / m = 0 ∨
      ((product + exact) / m = b ∧ exact + product % b < b * m) := by
  have hstart := Nat.mod_lt product hb
  have hend := Nat.mod_lt ((product + exact) % m) hb
  unfold KeepsElapsed
  constructor
  · intro hkeeps
    rcases hkeeps with hzero | ⟨hk, hlt⟩ | ⟨_, hle⟩ | ⟨_, _, hle⟩
    · exact .inl hzero
    · exact .inr ⟨hk, hk ▸ hlt⟩
    · omega
    · omega
  · intro hkeeps
    rcases hkeeps with hzero | ⟨hk, hlt⟩
    · exact .inl hzero
    · exact .inr (.inl ⟨hk, by rw [hk]; exact hlt⟩)

/-- Quotients `u` and `v` of two products, of which the second is `exact` further on and has
wrapped `k` times: their difference in terms of what is left of the products. -/
theorem elapsed_close_iff {k u v r w exact : ℕ} (hbm : b < m) (hr : r < b) (hw : w < b)
    (hstart : b * u + r < m) (hu : u < m) (hv : v < m) (hk : k ≤ b)
    (hwraps : m * k + (b * v + w) = b * u + r + exact) :
    (exact ≤ b * elapsed m u v + b ∧ b * elapsed m u v ≤ exact + b) ↔
      k = 0 ∨ (k = b ∧ exact + r < m * k) ∨ (k = 1 ∧ m + w ≤ b + r) ∨
        (k + 1 = b ∧ exact + r < m * k ∧ m + r ≤ b + w) := by
  -- what one wrap loses is more than the quotients' rounding can make up for, and what is lost
  -- twice even more
  have hfew : k = 0 ∧ m * k = 0 ∨ k = 1 ∧ m * k = m ∨ 2 ≤ k ∧ 2 * m ≤ m * k := by
    rcases k with _ | _ | k
    · exact .inl ⟨rfl, rfl⟩
    · exact .inr (.inl ⟨rfl, Nat.mul_one m⟩)
    · refine .inr (.inr ⟨by omega, ?_⟩)
      rw [Nat.mul_comm]
      exact Nat.mul_le_mul_left m (by omega)
  have hmany : k = b ∧ m * k = b * m ∨ k + 1 = b ∧ m * k + m = b * m ∨
      k + 2 ≤ b ∧ m * k + 2 * m ≤ b * m := by
    obtain ⟨c, rfl⟩ := Nat.exists_eq_add_of_le hk
    rw [Nat.add_mul, Nat.mul_comm k m]
    rcases c with _ | _ | c
    · exact .inl ⟨rfl, by rw [Nat.zero_mul]; rfl⟩
    · exact .inr (.inl ⟨rfl, by rw [Nat.one_mul]⟩)
    · exact .inr (.inr ⟨by omega, Nat.add_le_add_left (Nat.mul_le_mul_right m (by omega)) _⟩)
  rcases Nat.lt_or_ge v u with hvu | huv
  · -- the quotients have wrapped, too
    have hstep : b * v + b ≤ b * u := by
      rw [← Nat.mul_succ]
      exact Nat.mul_le_mul_left b hvu
    have hproduct : b * (v + m - u) + b * u = b * v + b * m := by
      rw [← Nat.mul_add, ← Nat.mul_add]
      congr 1
      omega
    rw [elapsed_of_lt hvu hu.le]
    generalize b * (v + m - u) = E at hproduct ⊢
    omega
  · have hmono : b * u ≤ b * v := Nat.mul_le_mul_left b huv
    have hproduct : b * (v - u) + b * u = b * v := by
      rw [← Nat.mul_add]
      congr 1
      omega
    rw [elapsed_of_le huv hv]
    generalize b * (v - u) = E at hproduct ⊢
    omega

/-- **The difference of two converted counts**, taken modulo `m`, is at most one away from the
exact value exactly if the products keep the elapsed count. -/
theorem scaled_elapsed_iff (hb : 0 < b) (hbm : b < m) (hrange : d * a < b * m) :
    |(elapsed m (scaled m a b t) (scaled m a b (t + d)) : ℚ) - ((d * a : ℕ) : ℚ) / b| ≤ 1 ↔
      KeepsElapsed m b (t * a % m) (d * a) := by
  have hm : 0 < m := Nat.lt_trans hb hbm
  have hsum : (t + d) * a % m = (t * a % m + d * a) % m := by
    rw [Nat.add_mul, Nat.mod_add_mod]
  have hA : t * a % m < m := Nat.mod_lt _ hm
  have hB : (t * a % m + d * a) % m < m := Nat.mod_lt _ hm
  have hk : (t * a % m + d * a) / m ≤ b := by
    apply Nat.lt_succ_iff.mp
    apply Nat.div_lt_of_lt_mul
    rw [Nat.mul_succ, Nat.mul_comm m b]
    omega
  rw [abs_sub_div_le_one_iff hb]
  simp only [scaled, hsum, KeepsElapsed, Nat.mul_comm _ m]
  apply elapsed_close_iff hbm (Nat.mod_lt _ hb) (Nat.mod_lt _ hb)
  · rwa [Nat.div_add_mod]
  · exact Nat.lt_of_le_of_lt (Nat.div_le_self _ _) hA
  · exact Nat.lt_of_le_of_lt (Nat.div_le_self _ _) hB
  · exact hk
  · rw [Nat.div_add_mod, Nat.div_add_mod, Nat.div_add_mod]

end Poski.Lib
