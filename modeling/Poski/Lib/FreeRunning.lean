import Mathlib.Data.Nat.Bitwise
import Mathlib.Data.Nat.ModEq
import Mathlib.Data.List.Basic

/-!
# Buffers under Free-Running Counters

A circular buffer of `c` cells may be addressed by counters that are never reduced
modulo `c`: they run modulo some larger `M` (a machine word, say) and are reduced only
to select a cell. If `c` divides `M`, a window of at most `c` consecutive counter values
selects pairwise distinct cells, also across the wrap at `M`, and the buffer behaves as
a queue.

- `slot_inj` : distinct counters of one window select distinct cells
- `view` : the list of cells that a window selects
- `view_write` : writing the cell behind the window appends
- `exists_mask_clash` : a mask by a count that is no power of two selects one cell twice
-/

namespace Poski.Lib.FreeRunning

universe u

variable {α : Type u} {M c r n : ℕ}

/-- In one window of at most `c` counters, distinct counters select distinct cells. -/
theorem slot_inj {i j : ℕ} (hc : c ∣ M) (hi : i < c) (hj : j < c)
    (h : (r + i) % M % c = (r + j) % M % c) : i = j := by
  rw [Nat.mod_mod_of_dvd _ hc, Nat.mod_mod_of_dvd _ hc] at h
  have hij : i ≡ j [MOD c] := Nat.ModEq.add_left_cancel' r h
  exact hij.eq_of_lt_of_lt hi hj

/-- The cells that the `n` counters from `r` on select, in order. -/
def view (M c : ℕ) (cells : ℕ → α) (r n : ℕ) : List α :=
  (List.range n).map fun k => cells ((r + k) % M % c)

/-- A view depends only on the `c` cells of the buffer. -/
theorem view_congr (hc : 0 < c) {cells cells' : ℕ → α}
    (h : ∀ k < c, cells k = cells' k) : view M c cells r n = view M c cells' r n := by
  apply List.map_congr_left
  intro k _
  exact h _ (Nat.mod_lt _ hc)

theorem view_succ_last (cells : ℕ → α) :
    view M c cells r (n + 1) = view M c cells r n ++ [cells ((r + n) % M % c)] := by
  simp [view, List.range_succ]

/-- Writing the cell that the counter behind the window selects appends to the view, as
long as the window is shorter than the buffer. -/
theorem view_write (hc : c ∣ M) (hn : n < c) (cells : ℕ → α) (x : α) :
    view M c (Function.update cells ((r + n) % M % c) x) r (n + 1) =
      view M c cells r n ++ [x] := by
  rw [view_succ_last, Function.update_self]
  congr 1
  apply List.map_congr_left
  intro k hk
  have hkn : k < n := List.mem_range.mp hk
  apply Function.update_of_ne
  intro heq
  have := slot_inj hc (hkn.trans hn) hn heq
  omega

/-- If `c` is not a power of two, the mask `c - 1` sends two of the first `c` counters, of
which one is zero, to the same cell. -/
theorem exists_mask_clash (hc : 0 < c) (hpow : ¬c.isPowerOfTwo) :
    ∃ j, 0 < j ∧ j < c ∧ j &&& (c - 1) = 0 := by
  have hlo : 2 ^ c.log2 ≤ c := Nat.log2_self_le hc.ne'
  have hhi : c < 2 ^ (c.log2 + 1) := Nat.lt_log2_self
  have hne : c ≠ 2 ^ c.log2 := fun h => hpow ⟨_, h⟩
  -- the complement of `c - 1` in as many bits
  refine ⟨2 ^ (c.log2 + 1) - (c - 1 + 1), by omega, ?_, ?_⟩
  · rw [Nat.pow_succ] at hhi ⊢
    omega
  · apply Nat.eq_of_testBit_eq
    intro i
    rw [Nat.testBit_and, Nat.testBit_two_pow_sub_succ (by omega), Nat.zero_testBit]
    cases (c - 1).testBit i <;> simp

end Poski.Lib.FreeRunning
