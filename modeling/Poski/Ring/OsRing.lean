import Mathlib.Data.Nat.Bitwise
import Mathlib.Tactic.NormNum
import Poski.Lib.FreeRunning
import Poski.Osal.Types

/-!
# OsRing

The ring buffer of `OsRing.h` as the code computes it: a flat byte buffer and two
16-bit indices that are never reduced. Each method is translated with the integer
conversions of the C++ source (a `uint16_t` is promoted before arithmetic and truncated
when it is stored).

## Main results

- `countOk_iff` : the constructor's assertion accepts exactly the powers of two up to
  `2 ^ 15`
- `Valid.pushBack_spec`, `Valid.popFront_spec`, `frontBytes_eq` : what the methods do to
  the stored messages (`contents`) of a ring in a valid state
-/

namespace Poski

open Lib Lib.FreeRunning

/-- `class OsRing`. -/
structure OsRing where
  buffer : List UInt8
  itemSize : UInt16
  itemCount : UInt16
  readIndex : UInt16
  writeIndex : UInt16
  deriving DecidableEq, Repr

namespace OsRing

/-! ## The class, method by method -/

/-- `itemCount > 0 && !((itemCount - 1) & itemCount)`. -/
def countOk (itemCount : UInt16) : Bool :=
  decide (0 < itemCount) && decide ((itemCount.toUInt32 - 1) &&& itemCount.toUInt32 = 0)

/-- `OsRing(uint16_t itemSize, uint16_t itemCount)`. -/
def construct (b : Build) (heap : Allocator) (itemSize itemCount : UInt16) :
    Except Halt OsRing := do
  b.assert (countOk itemCount)
  -- `new uint8_t[itemSize * itemCount]`: the product of two `int`s
  let bytes ← intMul itemSize.toNat itemCount.toNat
  let buffer ← heap.operatorNew bytes
  return { buffer, itemSize, itemCount, readIndex := 0, writeIndex := 0 }

/-- `uint16_t size()`. -/
def size (r : OsRing) : UInt16 := r.writeIndex - r.readIndex

/-- `bool empty()`. -/
def empty (r : OsRing) : Bool := r.readIndex == r.writeIndex

/-- `bool full()`. -/
def full (r : OsRing) : Bool := r.size == r.itemCount

/-- `unsigned mask(unsigned index)`. -/
def mask (r : OsRing) (index : UInt32) : UInt32 := index &&& (r.itemCount.toUInt32 - 1)

/-- `unsigned inc(unsigned index)`. -/
def inc (index : UInt32) : UInt32 := index + 1

/-- The offset `mask(index) * _itemSize` into the buffer, computed in `unsigned`. -/
def offset (r : OsRing) (index : UInt16) : ℕ :=
  (r.mask index.toUInt32 * r.itemSize.toUInt32).toNat

/-- `void push_back(void * item)`; `item` is the memory the pointer leads to. -/
def pushBack (b : Build) (r : OsRing) (item : List UInt8) : Except Halt OsRing := do
  b.assert (!r.full)
  let buffer ← memcpy r.buffer (r.offset r.writeIndex) item r.itemSize.toNat
  return { r with buffer, writeIndex := (inc r.writeIndex.toUInt32).toUInt16 }

/-- `void pop_front()`. -/
def popFront (b : Build) (r : OsRing) : Except Halt OsRing := do
  b.assert (!r.empty)
  return { r with readIndex := (inc r.readIndex.toUInt32).toUInt16 }

/-- `void * front()`: an offset into the buffer, or `NULL`. -/
def front (r : OsRing) : Option ℕ :=
  -- `item` is computed before `empty()` is asked
  let item := r.offset r.readIndex
  if r.empty then none else some item

/-! ## What a ring stores -/

/-- The bytes of the slot that `index` selects. -/
def slot (r : OsRing) (index : UInt16) : List UInt8 :=
  slice r.buffer (r.offset index) r.itemSize.toNat

/-- The messages a ring stores, the oldest first: the slots of the `size()` index values
from `_readIndex` on. -/
def contents (r : OsRing) : List (List UInt8) :=
  (List.range r.size.toNat).map fun k => r.slot (r.readIndex + UInt16.ofNat k)

/-- A ring that a constructor call with an admissible count has set up: the buffer has
the allocated length and `itemCount` passes the constructor's assertion. -/
structure WellFormed (r : OsRing) : Prop where
  countOk : countOk r.itemCount = true
  length_buffer : r.buffer.length = r.itemSize.toNat * r.itemCount.toNat

/-- A ring that holds at most `itemCount` messages. -/
structure Valid (r : OsRing) : Prop extends WellFormed r where
  size_le : r.size.toNat ≤ r.itemCount.toNat

/-! ## The constructor's assertion -/

/-- The mask of a positive count: the 32-bit subtraction does not wrap. -/
theorem toNat_sub_one {itemCount : UInt16} (hpos : 0 < itemCount.toNat) :
    (itemCount.toUInt32 - 1).toNat = itemCount.toNat - 1 := by
  have hle : (1 : UInt32) ≤ itemCount.toUInt32 := by
    rw [UInt32.le_iff_toNat_le, UInt16.toNat_toUInt32]
    exact hpos
  rw [UInt32.toNat_sub_of_le _ _ hle, UInt16.toNat_toUInt32, UInt32.toNat_one]

theorem countOk_iff_isPowerOfTwo (itemCount : UInt16) :
    countOk itemCount = true ↔ itemCount.toNat.isPowerOfTwo := by
  have hand (hpos : 0 < itemCount.toNat) :
      (itemCount.toUInt32 - 1) &&& itemCount.toUInt32 = 0 ↔
        itemCount.toNat.isPowerOfTwo := by
    rw [← Nat.and_sub_one_eq_zero_iff_isPowerOfTwo hpos.ne', ← UInt32.toNat_inj,
      UInt32.toNat_and, toNat_sub_one hpos, Nat.and_comm, UInt16.toNat_toUInt32,
      UInt32.toNat_zero]
  simp only [countOk, Bool.and_eq_true, decide_eq_true_eq, UInt16.lt_iff_toNat_lt]
  constructor
  · rintro ⟨hpos, hzero⟩
    exact (hand hpos).mp hzero
  · intro hpow
    have hpos : 0 < itemCount.toNat := Nat.pos_of_isPowerOfTwo hpow
    exact ⟨hpos, (hand hpos).mpr hpow⟩

/-- **Admissible counts** are the powers of two that a 16-bit integer can hold. -/
theorem countOk_iff (itemCount : UInt16) :
    countOk itemCount = true ↔ ∃ k ≤ 15, itemCount.toNat = 2 ^ k := by
  rw [countOk_iff_isPowerOfTwo]
  constructor
  · rintro ⟨k, hk⟩
    have hlt : 2 ^ k < 2 ^ 16 := hk ▸ itemCount.toNat_lt
    have hexp := (Nat.pow_lt_pow_iff_right Nat.one_lt_two).mp hlt
    exact ⟨k, Nat.le_of_lt_succ hexp, hk⟩
  · rintro ⟨k, -, hk⟩
    exact ⟨k, hk⟩

theorem countOk_pos {itemCount : UInt16} (h : countOk itemCount = true) :
    0 < itemCount.toNat := by
  obtain ⟨k, -, hk⟩ := (countOk_iff itemCount).mp h
  rw [hk]
  exact Nat.two_pow_pos k

theorem countOk_le {itemCount : UInt16} (h : countOk itemCount = true) :
    itemCount.toNat ≤ 32768 := by
  obtain ⟨k, hk, heq⟩ := (countOk_iff itemCount).mp h
  rw [heq]
  calc 2 ^ k ≤ 2 ^ 15 := Nat.pow_le_pow_right (by omega) hk
    _ = 32768 := by norm_num

/-- An admissible count divides the modulus of the indices. -/
theorem countOk_dvd {itemCount : UInt16} (h : countOk itemCount = true) :
    itemCount.toNat ∣ 65536 := by
  obtain ⟨k, hk, heq⟩ := (countOk_iff itemCount).mp h
  rw [heq]
  exact pow_dvd_pow 2 (by omega : k ≤ 16)

/-! ## Index arithmetic -/

theorem toNat_size (r : OsRing) :
    r.size.toNat = (r.writeIndex.toNat + 65536 - r.readIndex.toNat) % 65536 := by
  have := r.readIndex.toNat_lt
  rw [size, UInt16.toNat_sub]
  omega

@[simp] theorem toNat_inc (i : UInt16) :
    (inc i.toUInt32).toUInt16.toNat = (i.toNat + 1) % 65536 := by
  simp only [inc, UInt32.toNat_toUInt16, UInt32.toNat_add, UInt16.toNat_toUInt32,
    UInt32.toNat_one]
  omega

theorem toNat_add_ofNat (i : UInt16) (k : ℕ) :
    (i + UInt16.ofNat k).toNat = (i.toNat + k) % 65536 := by
  rw [UInt16.toNat_add, UInt16.toNat_ofNat']
  omega

/-- What lies `k` behind the next index lies `k + 1` behind the index itself. -/
theorem inc_add_ofNat (i : UInt16) (k : ℕ) :
    (inc i.toUInt32).toUInt16 + UInt16.ofNat k = i + UInt16.ofNat (k + 1) := by
  rw [← UInt16.toNat_inj, toNat_add_ofNat, toNat_add_ofNat, toNat_inc]
  omega

theorem toNat_ne_zero_iff {i : UInt16} : i.toNat ≠ 0 ↔ i ≠ 0 := by
  rw [ne_eq, ne_eq, ← UInt16.toNat_inj, UInt16.toNat_zero]

theorem countOk_ne_zero {itemCount : UInt16} (h : countOk itemCount = true) : itemCount ≠ 0 :=
  toNat_ne_zero_iff.mp (countOk_pos h).ne'

theorem empty_iff (r : OsRing) : r.empty = true ↔ r.size.toNat = 0 := by
  have hr := r.readIndex.toNat_lt
  have hw := r.writeIndex.toNat_lt
  rw [empty, beq_iff_eq, ← UInt16.toNat_inj, toNat_size]
  omega

theorem empty_eq_false_iff (r : OsRing) : r.empty = false ↔ r.size.toNat ≠ 0 := by
  rw [Bool.eq_false_iff, ne_eq, empty_iff]

theorem full_iff (r : OsRing) : r.full = true ↔ r.size.toNat = r.itemCount.toNat := by
  rw [full, beq_iff_eq, ← UInt16.toNat_inj]

theorem toNat_mask_eq_and {r : OsRing} (hpos : 0 < r.itemCount.toNat) (i : UInt16) :
    (r.mask i.toUInt32).toNat = i.toNat &&& (r.itemCount.toNat - 1) := by
  rw [mask, UInt32.toNat_and, toNat_sub_one hpos, UInt16.toNat_toUInt32]

/-- In a well-formed ring `mask` is reduction modulo the item count. -/
theorem toNat_mask {r : OsRing} (hr : countOk r.itemCount = true) (i : UInt16) :
    (r.mask i.toUInt32).toNat = i.toNat % r.itemCount.toNat := by
  obtain ⟨k, -, hk⟩ := (countOk_iff _).mp hr
  rw [toNat_mask_eq_and (countOk_pos hr), hk, Nat.and_two_pow_sub_one_eq_mod]

/-- The byte offset of a slot is exact: the 32-bit product does not wrap. -/
theorem offset_eq {r : OsRing} (hr : countOk r.itemCount = true) (i : UInt16) :
    r.offset i = i.toNat % r.itemCount.toNat * r.itemSize.toNat := by
  have hmod : i.toNat % r.itemCount.toNat < 32768 :=
    (Nat.mod_lt _ (countOk_pos hr)).trans_le (countOk_le hr)
  have hsize := r.itemSize.toNat_lt
  have hprod : i.toNat % r.itemCount.toNat * r.itemSize.toNat < 2 ^ 32 := by
    calc i.toNat % r.itemCount.toNat * r.itemSize.toNat
        ≤ 32768 * 65536 := Nat.mul_le_mul hmod.le hsize.le
      _ < 2 ^ 32 := by norm_num
  rw [offset, UInt32.toNat_mul, toNat_mask hr, UInt16.toNat_toUInt32, Nat.mod_eq_of_lt hprod]

/-! ## Slots and stored messages -/

/-- The slot numbered `k`, for `k < itemCount`. -/
def cell (r : OsRing) (k : ℕ) : List UInt8 :=
  slice r.buffer (k * r.itemSize.toNat) r.itemSize.toNat

theorem slot_eq_cell {r : OsRing} (hr : countOk r.itemCount = true) (i : UInt16) :
    r.slot i = r.cell (i.toNat % r.itemCount.toNat) := by
  rw [slot, cell, offset_eq hr]

/-- The stored messages are the view of a buffer of `itemCount` cells under counters
that run modulo `2 ^ 16`. -/
theorem contents_eq_view {r : OsRing} (hr : countOk r.itemCount = true) :
    r.contents =
      view 65536 r.itemCount.toNat r.cell r.readIndex.toNat r.size.toNat := by
  apply List.map_congr_left
  intro k _
  rw [slot_eq_cell hr, toNat_add_ofNat]

@[simp] theorem length_contents (r : OsRing) : r.contents.length = r.size.toNat := by
  simp [contents]

theorem toNat_writeIndex (r : OsRing) :
    r.writeIndex.toNat = (r.readIndex.toNat + r.size.toNat) % 65536 := by
  have hr := r.readIndex.toNat_lt
  have hw := r.writeIndex.toNat_lt
  rw [toNat_size]
  omega

theorem WellFormed.offset_add_le {r : OsRing} (hr : WellFormed r) (i : UInt16) :
    r.offset i + r.itemSize.toNat ≤ r.buffer.length := by
  rw [offset_eq hr.countOk, hr.length_buffer]
  exact mul_add_le (Nat.mod_lt _ (countOk_pos hr.countOk))

/-! ## The constructor -/

theorem construct_eq_ok {b : Build} {heap : Allocator} {itemSize itemCount : UInt16}
    {r : OsRing} (h : construct b heap itemSize itemCount = .ok r) :
    (b.ndebug = true ∨ countOk itemCount = true) ∧
      r.itemSize = itemSize ∧ r.itemCount = itemCount ∧ r.readIndex = 0 ∧
      r.writeIndex = 0 ∧ r.buffer.length = itemSize.toNat * itemCount.toNat := by
  unfold construct at h
  obtain ⟨_, hassert, h⟩ := bind_eq_ok.mp h
  obtain ⟨bytes, hmul, h⟩ := bind_eq_ok.mp h
  obtain ⟨buffer, hnew, h⟩ := bind_eq_ok.mp h
  cases h
  have hlen := Allocator.length_of_operatorNew hnew
  rw [(intMul_eq_ok.mp hmul).2] at hlen
  exact ⟨Build.assert_eq_ok.mp hassert, rfl, rfl, rfl, rfl, hlen⟩

/-- A build with assertions constructs only rings of an admissible count. -/
theorem countOk_of_construct {b : Build} {heap : Allocator} {itemSize itemCount : UInt16}
    {r : OsRing} (hcount : b.ndebug = true → countOk itemCount = true)
    (h : construct b heap itemSize itemCount = .ok r) : countOk itemCount = true :=
  (construct_eq_ok h).1.elim hcount id

/-- A constructed ring with an admissible count is valid and stores nothing. -/
theorem construct_spec {b : Build} {heap : Allocator} {itemSize itemCount : UInt16}
    {r : OsRing} (hcount : countOk itemCount = true)
    (h : construct b heap itemSize itemCount = .ok r) :
    Valid r ∧ r.contents = [] := by
  obtain ⟨-, hsize, hcnt, hread, hwrite, hlen⟩ := construct_eq_ok h
  have hzero : r.size = 0 := by rw [size, hread, hwrite]; rfl
  refine ⟨⟨⟨by rw [hcnt]; exact hcount, by rw [hsize, hcnt]; exact hlen⟩, ?_⟩, ?_⟩
  · rw [hzero]
    exact Nat.zero_le _
  · rw [contents, hzero]
    rfl

/-! ## push_back -/

/-- The ring after `push_back` has copied `item` in. -/
def pushed (r : OsRing) (item : List UInt8) : OsRing :=
  { r with
    buffer := splice r.buffer (r.offset r.writeIndex) (item.take r.itemSize.toNat)
    writeIndex := (inc r.writeIndex.toUInt32).toUInt16 }

@[simp] theorem pushed_itemSize (r : OsRing) (item : List UInt8) :
    (r.pushed item).itemSize = r.itemSize := rfl

@[simp] theorem pushed_itemCount (r : OsRing) (item : List UInt8) :
    (r.pushed item).itemCount = r.itemCount := rfl

@[simp] theorem pushed_readIndex (r : OsRing) (item : List UInt8) :
    (r.pushed item).readIndex = r.readIndex := rfl

theorem pushed_writeIndex_add (r : OsRing) (item : List UInt8) (k : ℕ) :
    (r.pushed item).writeIndex + UInt16.ofNat k = r.writeIndex + UInt16.ofNat (k + 1) :=
  inc_add_ofNat r.writeIndex k

/-- In a well-formed ring only the assertion can keep `push_back` from storing. -/
theorem pushBack_eq {b : Build} {r : OsRing} {item : List UInt8} (hr : WellFormed r)
    (hitem : r.itemSize.toNat ≤ item.length) :
    r.pushBack b item =
      if b.ndebug || !r.full then .ok (r.pushed item) else .error .assertion := by
  have hfits : r.itemSize.toNat ≤ item.length ∧
      r.offset r.writeIndex + r.itemSize.toNat ≤ r.buffer.length :=
    ⟨hitem, hr.offset_add_le _⟩
  cases hcond : b.ndebug || !r.full <;>
    simp [pushBack, Build.assert, hcond, memcpy, hfits, bind, Except.bind, pushed, pure,
      Except.pure]

theorem size_pushed (r : OsRing) (item : List UInt8) :
    (r.pushed item).size.toNat = (r.size.toNat + 1) % 65536 := by
  have hr := r.readIndex.toNat_lt
  have hw := r.writeIndex.toNat_lt
  simp only [toNat_size, pushed, toNat_inc]
  omega

theorem WellFormed.pushed {r : OsRing} (hr : WellFormed r) {item : List UInt8}
    (hitem : r.itemSize.toNat ≤ item.length) : WellFormed (r.pushed item) where
  countOk := hr.countOk
  length_buffer := by
    have hfits := hr.offset_add_le r.writeIndex
    rw [OsRing.pushed, length_splice]
    · exact hr.length_buffer
    · rwa [List.length_take_of_le hitem]

/-- The written slot holds the message, the other slots are as before. -/
theorem WellFormed.cell_pushed {r : OsRing} (hr : WellFormed r) {item : List UInt8}
    (hitem : r.itemSize.toNat ≤ item.length) {k : ℕ} (hk : k < r.itemCount.toNat) :
    (r.pushed item).cell k =
      Function.update r.cell (r.writeIndex.toNat % r.itemCount.toNat)
        (item.take r.itemSize.toNat) k := by
  have hlen : (item.take r.itemSize.toNat).length = r.itemSize.toNat :=
    List.length_take_of_le hitem
  have hfits := hr.offset_add_le r.writeIndex
  have hoff := offset_eq hr.countOk r.writeIndex
  -- the slot that is written, and those beside it
  by_cases hkw : k = r.writeIndex.toNat % r.itemCount.toNat
  · subst hkw
    rw [Function.update_self, cell, pushed_itemSize, ← hoff]
    have hstart : r.offset r.writeIndex ≤ r.buffer.length := by omega
    have hread : slice (r.pushed item).buffer (r.offset r.writeIndex)
        (item.take r.itemSize.toNat).length = item.take r.itemSize.toNat :=
      slice_splice_self hstart
    rwa [hlen] at hread
  · rw [Function.update_of_ne hkw, cell, pushed_itemSize]
    apply slice_splice_of_disjoint
    · rwa [hlen]
    · rw [hlen, hoff]
      exact mul_disjoint hkw

/-- **push_back appends**, as long as there is a free slot. -/
theorem WellFormed.contents_pushed {r : OsRing} (hr : WellFormed r) {item : List UInt8}
    (hitem : r.itemSize.toNat ≤ item.length) (hroom : r.size.toNat < r.itemCount.toNat) :
    (r.pushed item).contents = r.contents ++ [item.take r.itemSize.toNat] := by
  have hle := countOk_le hr.countOk
  have hsize : (r.pushed item).size.toNat = r.size.toNat + 1 := by
    rw [size_pushed]
    omega
  rw [contents_eq_view (hr.pushed hitem).countOk, contents_eq_view hr.countOk, hsize,
    pushed_itemCount, pushed_readIndex,
    view_congr (countOk_pos hr.countOk) fun k hk => hr.cell_pushed hitem hk,
    toNat_writeIndex]
  exact view_write (countOk_dvd hr.countOk) hroom _ _

/-- In every build, `push_back` on a ring with a free slot appends the `itemSize` bytes
that the pointer leads to. -/
theorem Valid.pushBack_spec {b : Build} {r : OsRing} {item : List UInt8} (hr : Valid r)
    (hitem : r.itemSize.toNat ≤ item.length) (hroom : r.size.toNat < r.itemCount.toNat) :
    r.pushBack b item = .ok (r.pushed item) ∧ Valid (r.pushed item) ∧
      (r.pushed item).contents = r.contents ++ [item.take r.itemSize.toNat] := by
  have hfull : r.full = false := by
    rw [Bool.eq_false_iff, ne_eq, full_iff]
    omega
  have hle := countOk_le hr.countOk
  refine ⟨by simp [pushBack_eq hr.toWellFormed hitem, hfull],
    ⟨hr.toWellFormed.pushed hitem, ?_⟩, hr.toWellFormed.contents_pushed hitem hroom⟩
  rw [size_pushed, pushed_itemCount]
  omega

/-! ## pop_front and front -/

/-- The ring after `pop_front`. -/
def popped (r : OsRing) : OsRing :=
  { r with readIndex := (inc r.readIndex.toUInt32).toUInt16 }

@[simp] theorem popped_itemSize (r : OsRing) : r.popped.itemSize = r.itemSize := rfl

@[simp] theorem popped_itemCount (r : OsRing) : r.popped.itemCount = r.itemCount := rfl

theorem popped_readIndex_add (r : OsRing) (k : ℕ) :
    r.popped.readIndex + UInt16.ofNat k = r.readIndex + UInt16.ofNat (k + 1) :=
  inc_add_ofNat r.readIndex k

theorem popFront_eq (b : Build) (r : OsRing) :
    r.popFront b = if b.ndebug || !r.empty then .ok r.popped else .error .assertion := by
  cases hcond : b.ndebug || !r.empty <;>
    simp [popFront, Build.assert, hcond, bind, Except.bind, popped, pure, Except.pure]

theorem popFront_eq_ok {b : Build} {r r' : OsRing} :
    r.popFront b = .ok r' ↔ (b.ndebug = true ∨ r.empty = false) ∧ r' = r.popped := by
  have hpass : (b.ndebug || !r.empty) = true ↔ b.ndebug = true ∨ r.empty = false := by simp
  rw [popFront_eq, ← hpass]
  by_cases h : (b.ndebug || !r.empty) = true
  · rw [if_pos h, Except.ok.injEq, eq_comm, and_iff_right h]
  · rw [if_neg h]
    constructor
    · intro h'
      cases h'
    · rintro ⟨h', -⟩
      exact absurd h' h

theorem size_popped {r : OsRing} (h : r.size.toNat ≠ 0) :
    r.popped.size.toNat = r.size.toNat - 1 := by
  have hr := r.readIndex.toNat_lt
  have hw := r.writeIndex.toNat_lt
  simp only [toNat_size, popped, toNat_inc] at h ⊢
  omega

theorem WellFormed.popped {r : OsRing} (hr : WellFormed r) : WellFormed r.popped :=
  ⟨hr.countOk, hr.length_buffer⟩

/-- **pop_front removes the oldest message**, in a ring of any count. -/
theorem contents_popped {r : OsRing} (h : r.size.toNat ≠ 0) :
    r.contents = r.slot r.readIndex :: r.popped.contents := by
  -- no slot changes; the stored ones are counted from one further on
  obtain ⟨n, hn⟩ := Nat.exists_eq_succ_of_ne_zero h
  have hslot : r.popped.slot = r.slot := rfl
  rw [contents, contents, size_popped h, hn, Nat.succ_sub_one, List.range_succ_eq_map,
    List.map_cons, List.map_map, hslot]
  congr 1
  · simp
  · apply List.map_congr_left
    intro k _
    rw [Function.comp_apply, popped_readIndex_add]

/-- The assertion of `pop_front` holds in a ring with a message. -/
theorem popFront_of_size_ne_zero (b : Build) {r : OsRing} (h : r.size.toNat ≠ 0) :
    r.popFront b = .ok r.popped :=
  popFront_eq_ok.mpr ⟨.inr ((empty_eq_false_iff r).mpr h), rfl⟩

/-- In every build, `pop_front` on a non-empty ring removes the oldest message. -/
theorem Valid.popFront_spec {b : Build} {r : OsRing} (hr : Valid r) (h : r.size.toNat ≠ 0) :
    r.popFront b = .ok r.popped ∧ Valid r.popped ∧
      r.contents = r.slot r.readIndex :: r.popped.contents := by
  refine ⟨popFront_of_size_ne_zero b h, ⟨hr.toWellFormed.popped, ?_⟩, contents_popped h⟩
  have := hr.size_le
  rw [size_popped h, popped_itemCount]
  omega

theorem front_of_size_ne_zero {r : OsRing} (h : r.size.toNat ≠ 0) :
    r.front = some (r.offset r.readIndex) := by
  rw [front, (empty_eq_false_iff r).mpr h]
  rfl

theorem front_eq_some {r : OsRing} {item : ℕ} (h : r.front = some item) :
    item = r.offset r.readIndex := by
  rw [front] at h
  split at h
  · cases h
  · exact (Option.some_inj.mp h).symm

/-- The bytes that are copied from the front pointer. -/
theorem take_front {r : OsRing} {item : ℕ} (h : r.front = some item) :
    (r.buffer.drop item).take r.itemSize.toNat = r.slot r.readIndex := by
  rw [front_eq_some h]
  rfl

/-- `memcpy` from the front pointer delivers the oldest message. -/
theorem memcpy_front {r : OsRing} {out : List UInt8} {item : ℕ}
    (hfits : r.offset r.readIndex + r.itemSize.toNat ≤ r.buffer.length)
    (hout : r.itemSize.toNat ≤ out.length) (hfront : r.front = some item) :
    memcpy out 0 (r.buffer.drop item) r.itemSize.toNat =
      .ok (r.slot r.readIndex ++ out.drop r.itemSize.toNat) := by
  have hguard : r.itemSize.toNat ≤ (r.buffer.drop item).length ∧
      0 + r.itemSize.toNat ≤ out.length := by
    rw [List.length_drop, front_eq_some hfront]
    omega
  have hlen : (r.slot r.readIndex).length = r.itemSize.toNat := length_slice hfits
  rw [memcpy, if_pos hguard, take_front hfront, splice, List.take_zero, List.nil_append, hlen,
    Nat.zero_add]

/-- The bytes behind the pointer that `front()` returns. -/
def frontBytes (r : OsRing) : Option (List UInt8) :=
  r.front.map fun p => slice r.buffer p r.itemSize.toNat

/-- **front** points to the oldest message; it is `NULL` exactly when there is none. -/
theorem frontBytes_eq (r : OsRing) :
    r.frontBytes = r.contents.head? := by
  cases hempty : r.empty with
  | true =>
    have hzero := (empty_iff r).mp hempty
    have hnil : r.contents = [] := List.eq_nil_of_length_eq_zero (by simpa using hzero)
    simp [frontBytes, front, hempty, hnil]
  | false =>
    have hsize := (empty_eq_false_iff r).mp hempty
    rw [frontBytes, front_of_size_ne_zero hsize, contents_popped hsize]
    rfl

end OsRing

end Poski
