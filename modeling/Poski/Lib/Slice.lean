import Mathlib.Data.List.Basic

/-!
# Slices of a Flat Memory

A block of memory is a list of cells. `slice` reads a run of cells, `splice` overwrites
one. A slice is not affected by a splice that ends before it or starts behind it.
-/

namespace Poski.Lib

universe u

variable {α : Type u}

/-- The `n` cells of `mem` from offset `off` on. -/
def slice (mem : List α) (off n : ℕ) : List α :=
  (mem.drop off).take n

/-- `mem` with the cells from offset `off` on overwritten by `cells`. -/
def splice (mem : List α) (off : ℕ) (cells : List α) : List α :=
  mem.take off ++ cells ++ mem.drop (off + cells.length)

theorem length_slice {mem : List α} {off n : ℕ} (h : off + n ≤ mem.length) :
    (slice mem off n).length = n := by
  simp only [slice, List.length_take, List.length_drop]
  omega

@[simp] theorem slice_zero (mem : List α) (off : ℕ) : slice mem off 0 = [] := by
  simp [slice]

theorem length_splice {mem : List α} {off : ℕ} {cells : List α}
    (h : off + cells.length ≤ mem.length) :
    (splice mem off cells).length = mem.length := by
  simp only [splice, List.length_append, List.length_take, List.length_drop]
  omega

/-- The cells just written are read back. -/
theorem slice_splice_self {mem : List α} {off : ℕ} {cells : List α}
    (h : off ≤ mem.length) :
    slice (splice mem off cells) off cells.length = cells := by
  have hlen : (mem.take off).length = off := by simp [h]
  rw [slice, splice, List.append_assoc, List.drop_append_of_le_length (by omega),
    List.drop_of_length_le (by omega), List.nil_append]
  simp

/-- Cells outside the overwritten run keep their contents. -/
theorem getElem?_splice_of_disjoint {mem : List α} {off : ℕ} {cells : List α} {i : ℕ}
    (h : off + cells.length ≤ mem.length) (hi : i < off ∨ off + cells.length ≤ i) :
    (splice mem off cells)[i]? = mem[i]? := by
  have hlen : (mem.take off).length = off := by simp; omega
  rcases hi with hi | hi
  · rw [splice, List.append_assoc, List.getElem?_append_left (by omega),
      List.getElem?_take_of_lt hi]
  · have hlen' : (mem.take off ++ cells).length = off + cells.length := by
      rw [List.length_append, hlen]
    rw [splice, List.getElem?_append_right (by omega), hlen', List.getElem?_drop]
    congr 1
    omega

theorem slice_ext {mem mem' : List α} {off n : ℕ}
    (h : ∀ i, off ≤ i → i < off + n → mem[i]? = mem'[i]?) :
    slice mem off n = slice mem' off n := by
  apply List.ext_getElem?
  intro i
  by_cases hi : i < n
  · simp only [slice, List.getElem?_take_of_lt hi, List.getElem?_drop]
    exact h _ (by omega) (by omega)
  · simp [slice, List.getElem?_take_eq_none (by omega : n ≤ i)]

/-- A slice that ends before the splice, or starts behind it, is not affected. -/
theorem slice_splice_of_disjoint {mem : List α} {off : ℕ} {cells : List α} {off' n : ℕ}
    (h : off + cells.length ≤ mem.length)
    (hdis : off' + n ≤ off ∨ off + cells.length ≤ off') :
    slice (splice mem off cells) off' n = slice mem off' n := by
  apply slice_ext
  intro i hlo hhi
  apply getElem?_splice_of_disjoint h
  omega

/-- Two slices of width `n` at different multiples of `n` do not overlap. -/
theorem mul_disjoint {i j n : ℕ} (h : i ≠ j) : i * n + n ≤ j * n ∨ j * n + n ≤ i * n := by
  rcases Nat.lt_or_gt_of_ne h with hij | hji
  · left
    calc i * n + n = (i + 1) * n := (Nat.succ_mul i n).symm
      _ ≤ j * n := Nat.mul_le_mul_right n hij
  · right
    calc j * n + n = (j + 1) * n := (Nat.succ_mul j n).symm
      _ ≤ i * n := Nat.mul_le_mul_right n hji

/-- The slice at a multiple of its width below `c` ends inside `c` such widths. -/
theorem mul_add_le {i c n : ℕ} (h : i < c) : i * n + n ≤ n * c := by
  calc i * n + n = (i + 1) * n := (Nat.succ_mul i n).symm
    _ ≤ c * n := Nat.mul_le_mul_right n h
    _ = n * c := Nat.mul_comm c n

end Poski.Lib
