import Poski.Ring.Overwrite
import Poski.Ring.Refinement

/-!
# Where the Slots of a Ring Lie

The constructor multiplies `itemSize` and `itemCount` as `int` values, and `push_back` and
`front` multiply a mask and `itemSize` as `unsigned` ones. The index values are reduced only by
the mask. Which slots are apart depends on what the constructor's assertion lets through.

- `slotsApart_iff` : two slots are apart unless their indices have one mask
- `apart_iff_countOk` : exactly the counts that pass the assertion keep the slots of a window
  apart
- `slots_sound`
-/

namespace Poski.OsRing

open Lib

variable {b : Build} {r r' : OsRing} {i j start : UInt16} {n : ℕ}

/-! ## Windows -/

/-- `index` is one of the `n` index values from `start` on, which go on with 0 after 65535. -/
def InWindow (start : UInt16) (n : ℕ) (index : UInt16) : Prop := (index - start).toNat < n

instance (start : UInt16) (n : ℕ) (index : UInt16) : Decidable (InWindow start n index) :=
  inferInstanceAs (Decidable ((index - start).toNat < n))

/-- The position of an index in a window determines it. -/
theorem toNat_eq_start_add (start index : UInt16) :
    index.toNat = (start.toNat + (index - start).toNat) % 65536 := by
  have hstart := start.toNat_lt
  have hindex := index.toNat_lt
  rw [UInt16.toNat_sub]
  omega

theorem inWindow_zero_ofNat {k : ℕ} (hk : k < 65536) (hkn : k < n) :
    InWindow 0 n (UInt16.ofNat k) := by
  rw [InWindow, UInt16.sub_zero, UInt16.toNat_ofNat_of_lt' hk]
  exact hkn

/-! ## Slots -/

/-- No byte belongs to both slots. -/
def SlotsApart (r : OsRing) (i j : UInt16) : Prop := ∀ p, ¬(r.InSlot i p ∧ r.InSlot j p)

theorem slotsApart_iff :
    r.SlotsApart i j ↔ r.itemSize = 0 ∨ r.mask i.toUInt32 ≠ r.mask j.toUInt32 := by
  rw [SlotsApart, ← not_exists, inSlot_clash_iff, not_and_or, not_not]

/-- Two indices of one window have different masks, on both sides of the wrap. -/
theorem mask_ne_of_inWindow (hcount : countOk r.itemCount = true) (hn : n ≤ r.itemCount.toNat)
    (hi : InWindow start n i) (hj : InWindow start n j) (hne : i ≠ j) :
    r.mask i.toUInt32 ≠ r.mask j.toUInt32 := by
  intro heq
  rw [← UInt32.toNat_inj, toNat_mask hcount, toNat_mask hcount, toNat_eq_start_add start i,
    toNat_eq_start_add start j] at heq
  have hpos := FreeRunning.slot_inj (countOk_dvd hcount) (hi.trans_le hn) (hj.trans_le hn) heq
  apply hne
  rw [← UInt16.toNat_inj, toNat_eq_start_add start i, toNat_eq_start_add start j, hpos]

/-- **The assertion of the constructor is exact**: the slots of messages that have bytes are
apart in every window of `itemCount` indices, or the first window has two that are not. -/
theorem apart_iff_countOk (hsize : r.itemSize ≠ 0) (hpos : 0 < r.itemCount.toNat) :
    (∀ start i j, InWindow start r.itemCount.toNat i → InWindow start r.itemCount.toNat j →
        i ≠ j → r.SlotsApart i j) ↔
      countOk r.itemCount = true := by
  constructor
  · intro hapart
    by_contra hbad
    -- some later index of the window has the mask of the first one
    obtain ⟨k, hk, hlt, hmask⟩ := exists_mask_eq hpos hbad
    have hk' : k < 65536 := hlt.trans r.itemCount.toNat_lt
    have hne : (0 : UInt16) ≠ UInt16.ofNat k := by
      intro hzero
      have hval := congrArg UInt16.toNat hzero
      rw [UInt16.toNat_zero, UInt16.toNat_ofNat_of_lt' hk'] at hval
      omega
    have hslots := hapart 0 0 (UInt16.ofNat k) hpos (inWindow_zero_ofNat hk' hlt) hne
    exact (slotsApart_iff.mp hslots).elim hsize fun hmasks => hmasks hmask
  · intro hcount start i j hi hj hne
    exact slotsApart_iff.mpr (.inr (mask_ne_of_inWindow hcount le_rfl hi hj hne))

/-! ## Rings in use -/

/-- The sizes of a ring, and the buffer that belongs to them. -/
def Sized (itemSize itemCount : UInt16) (r : OsRing) : Prop :=
  r.itemSize = itemSize ∧ r.itemCount = itemCount ∧
    r.buffer.length = itemSize.toNat * itemCount.toNat

variable {itemSize itemCount : UInt16}

/-- No method changes them, in any build. -/
theorem Sized.call {c : Call} {reply : Reply} (hr : Sized itemSize itemCount r)
    (h : call b r c = .ok (r', reply)) : Sized itemSize itemCount r' := by
  obtain ⟨rfl, rfl, hlen⟩ := hr
  cases c with
  | pushBack item =>
    obtain ⟨r₁, hpush, heq⟩ := bind_eq_ok.mp h
    obtain ⟨-, ⟨hitem, hfits⟩, rfl⟩ := pushBack_eq_ok.mp hpush
    cases heq
    exact ⟨rfl, rfl, Allocated.pushed hlen hitem hfits⟩
  | popFront =>
    obtain ⟨r₁, hpop, heq⟩ := bind_eq_ok.mp h
    obtain ⟨-, rfl⟩ := popFront_eq_ok.mp hpop
    cases heq
    exact ⟨rfl, rfl, hlen⟩
  | front | size | empty | full =>
    cases h
    exact ⟨rfl, rfl, hlen⟩

/-- The largest ring takes up 2147450880 bytes, and `INT_MAX` is 2147483647. -/
theorem intMul_of_countOk (itemSize : UInt16) (hcount : countOk itemCount = true) :
    intMul itemSize.toNat itemCount.toNat = .ok (itemSize.toNat * itemCount.toNat) := by
  have hsize : itemSize.toNat ≤ 65535 := Nat.le_of_lt_succ itemSize.toNat_lt
  refine intMul_eq_ok.mpr ⟨?_, rfl⟩
  calc itemSize.toNat * itemCount.toNat ≤ 65535 * 32768 :=
        Nat.mul_le_mul hsize (countOk_le hcount)
    _ ≤ INT_MAX := by decide

/-- **The slots of a ring** of an admissible count: their total size is no `int` overflow, and
whatever calls have been made of the ring, in any build, each index value selects a slot at the
exact product, inside the buffer, and the indices of a window select slots that are apart. -/
theorem slots_sound (itemSize : UInt16) (hcount : countOk itemCount = true) :
    intMul itemSize.toNat itemCount.toNat = .ok (itemSize.toNat * itemCount.toNat) ∧
      ∀ (b : Build) (heap : Allocator) (r₀ r : OsRing) (calls : List Call)
        (replies : List Reply),
        construct b heap itemSize itemCount = .ok r₀ →
        runCalls (call b) r₀ calls = .ok (r, replies) →
          (∀ i, r.offset i = (r.mask i.toUInt32).toNat * itemSize.toNat ∧
            r.offset i + itemSize.toNat ≤ r.buffer.length) ∧
          ∀ start n i j, n ≤ itemCount.toNat → InWindow start n i → InWindow start n j → i ≠ j →
            r.SlotsApart i j := by
  refine ⟨intMul_of_countOk itemSize hcount, ?_⟩
  intro b heap r₀ r calls replies hnew hcalls
  obtain ⟨-, hsize₀, hcount₀, -, -, hlen₀⟩ := construct_eq_ok hnew
  -- nothing that is used below depends on the index values, which any calls may have moved
  obtain ⟨rfl, rfl, hlen⟩ := runCalls_invariant (I := Sized itemSize itemCount)
    (fun _ _ _ _ hr h => hr.call h) ⟨hsize₀, hcount₀, hlen₀⟩ hcalls
  have hr : WellFormed r := ⟨hcount, hlen⟩
  refine ⟨fun i => ⟨offset_eq_mask r i, hr.offset_add_le i⟩, ?_⟩
  intro start n i j hn hi hj hne
  exact slotsApart_iff.mpr (.inr (mask_ne_of_inWindow hcount hn hi hj hne))

/-- A ring of two messages of two bytes, as it is after some calls: the slots of 65535 and 0. -/
theorem slots_sound_sample :
    ∃ (r : OsRing) (replies : List Reply),
      runCalls (call ⟨false⟩) sampleRing sampleCalls = .ok (r, replies) ∧
        r.offset 65535 + 2 ≤ r.buffer.length ∧ r.SlotsApart 65535 0 := by
  have hcount : countOk 2 = true := by decide
  obtain ⟨-, hslots⟩ := slots_sound 2 hcount
  obtain ⟨hexact, hapart⟩ := hslots ⟨false⟩ .zeroed sampleRing _ sampleCalls _ rfl rfl
  exact ⟨_, _, rfl, (hexact 65535).2,
    hapart 65535 2 65535 0 (by decide) (by decide) (by decide) (by decide)⟩

end Poski.OsRing
