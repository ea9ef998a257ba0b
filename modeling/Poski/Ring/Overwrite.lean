import Poski.Ring.OsRing

/-!
# push_back outside its Rules of Use

`push_back` relies on two assertions: the constructor's, that the count is a power of two,
and its own, that the ring is not full. A build with `NDEBUG` drops both. Here rings of any
count and in any state are considered, and it is settled when `push_back` still appends
without touching a stored message.

- `Allocated` : the one invariant that every constructed ring keeps in every build
- `Overwrites` : `push_back` writes to a byte of a stored message
- `HasRoom` : the exact condition for a harmless `push_back`
- `pushBack_appends_iff`, `hasRoom_iff`
-/

namespace Poski.OsRing

open Lib

/-- The buffer has the length that the constructor asked for. -/
def Allocated (r : OsRing) : Prop :=
  r.buffer.length = r.itemSize.toNat * r.itemCount.toNat

variable {b : Build} {r : OsRing} {item : List UInt8}

/-! ## Offsets under any count -/

theorem toNat_mask_le (r : OsRing) (i : UInt16) : (r.mask i.toUInt32).toNat ≤ i.toNat := by
  rw [mask, UInt32.toNat_and, UInt16.toNat_toUInt32]
  exact Nat.and_le_left

/-- Offsets are exact: the 32-bit product does not wrap, whatever the count. -/
theorem offset_eq_mask (r : OsRing) (i : UInt16) :
    r.offset i = (r.mask i.toUInt32).toNat * r.itemSize.toNat := by
  have hmask := (toNat_mask_le r i).trans_lt i.toNat_lt
  have hsize := r.itemSize.toNat_lt
  have hprod : (r.mask i.toUInt32).toNat * r.itemSize.toNat < 2 ^ 32 := by
    calc (r.mask i.toUInt32).toNat * r.itemSize.toNat
        < 2 ^ 16 * 2 ^ 16 := Nat.mul_lt_mul'' hmask hsize
      _ = 2 ^ 32 := by norm_num
  rw [offset, UInt32.toNat_mul, UInt16.toNat_toUInt32, Nat.mod_eq_of_lt hprod]

theorem toNat_mask_lt (hcount : r.itemCount ≠ 0) (i : UInt16) :
    (r.mask i.toUInt32).toNat < r.itemCount.toNat := by
  have hpos : 0 < r.itemCount.toNat := Nat.pos_of_ne_zero (toNat_ne_zero_iff.mpr hcount)
  rw [toNat_mask_eq_and hpos]
  exact Nat.and_le_right.trans_lt (Nat.sub_one_lt hpos.ne')

/-- A mask that is no power of two sends two of the first indices to one slot. -/
theorem exists_mask_eq (hpos : 0 < r.itemCount.toNat) (hbad : countOk r.itemCount ≠ true) :
    ∃ j, 0 < j ∧ j < r.itemCount.toNat ∧
      r.mask (0 : UInt16).toUInt32 = r.mask (UInt16.ofNat j).toUInt32 := by
  rw [ne_eq, countOk_iff_isPowerOfTwo] at hbad
  obtain ⟨j, hj, hjlt, hand⟩ := FreeRunning.exists_mask_clash hpos hbad
  have hofNat : (UInt16.ofNat j).toNat = j :=
    UInt16.toNat_ofNat_of_lt (hjlt.trans r.itemCount.toNat_lt)
  refine ⟨j, hj, hjlt, ?_⟩
  rw [← UInt32.toNat_inj, toNat_mask_eq_and hpos, toNat_mask_eq_and hpos, hofNat, hand,
    UInt16.toNat_zero, Nat.zero_and]

/-- A slot lies inside the buffer, unless the buffer has no slot at all. -/
theorem Allocated.offset_add_le_iff (hr : Allocated r) (i : UInt16) :
    r.offset i + r.itemSize.toNat ≤ r.buffer.length ↔ r.itemSize = 0 ∨ r.itemCount ≠ 0 := by
  rw [hr, offset_eq_mask]
  constructor
  · intro hle
    by_contra hnone
    simp only [not_or, not_not] at hnone
    obtain ⟨hsize, hcount⟩ := hnone
    have hpos := toNat_ne_zero_iff.mpr hsize
    rw [hcount, UInt16.toNat_zero, Nat.mul_zero] at hle
    omega
  · rintro (hsize | hcount)
    · simp [hsize]
    · exact mul_add_le (toNat_mask_lt hcount i)

theorem Allocated.pushed (hr : Allocated r) (hitem : r.itemSize.toNat ≤ item.length)
    (hfits : r.offset r.writeIndex + r.itemSize.toNat ≤ r.buffer.length) :
    Allocated (r.pushed item) := by
  have hlen : (item.take r.itemSize.toNat).length = r.itemSize.toNat :=
    List.length_take_of_le hitem
  unfold Allocated
  rw [OsRing.pushed, length_splice (by rwa [hlen])]
  exact hr

/-! ## What push_back overwrites -/

/-- The byte at position `p` of the buffer belongs to the slot that `index` selects. -/
def InSlot (r : OsRing) (index : UInt16) (p : ℕ) : Prop :=
  r.offset index ≤ p ∧ p < r.offset index + r.itemSize.toNat

/-- Slots overlap only when the masks of their indices agree. -/
theorem inSlot_clash_iff {i j : UInt16} :
    (∃ p, r.InSlot i p ∧ r.InSlot j p) ↔
      r.itemSize ≠ 0 ∧ r.mask i.toUInt32 = r.mask j.toUInt32 := by
  constructor
  · rintro ⟨p, ⟨hlo, hhi⟩, hlo', hhi'⟩
    refine ⟨?_, ?_⟩
    · intro hzero
      rw [hzero, UInt16.toNat_zero] at hhi
      omega
    · by_contra hne
      rw [offset_eq_mask] at hlo hhi hlo' hhi'
      rcases mul_disjoint (n := r.itemSize.toNat) (mt UInt32.toNat_inj.mp hne) with h | h <;> omega
  · rintro ⟨hsize, heq⟩
    have hpos := toNat_ne_zero_iff.mpr hsize
    have hoff : r.offset i = r.offset j := by
      rw [offset_eq_mask, offset_eq_mask, heq]
    refine ⟨r.offset j, ⟨hoff.le, ?_⟩, le_rfl, ?_⟩ <;> omega

/-- A byte of a stored message lies where `push_back` is going to write. -/
def Overwrites (r : OsRing) : Prop :=
  ∃ k < r.size.toNat, ∃ p, r.InSlot (r.readIndex + UInt16.ofNat k) p ∧
    r.InSlot r.writeIndex p

/-- `push_back` writes nowhere else. -/
theorem pushed_frame (hitem : r.itemSize.toNat ≤ item.length)
    (hfits : r.offset r.writeIndex + r.itemSize.toNat ≤ r.buffer.length) {p : ℕ}
    (hp : ¬r.InSlot r.writeIndex p) : (r.pushed item).buffer[p]? = r.buffer[p]? := by
  have hlen : (item.take r.itemSize.toNat).length = r.itemSize.toNat :=
    List.length_take_of_le hitem
  unfold InSlot at hp
  apply getElem?_splice_of_disjoint
  · rwa [hlen]
  · rw [hlen]
    omega

/-- A slot whose index has the mask of the write index receives the message. -/
theorem slot_pushed_of_mask_eq {i : UInt16} (hitem : item.length = r.itemSize.toNat)
    (hfits : r.offset r.writeIndex + r.itemSize.toNat ≤ r.buffer.length)
    (heq : r.mask i.toUInt32 = r.mask r.writeIndex.toUInt32) :
    (r.pushed item).slot i = item := by
  have hoff : (r.pushed item).offset i = r.offset r.writeIndex := by
    show r.offset i = _
    rw [offset_eq_mask, offset_eq_mask, heq]
  have hall : item.take r.itemSize.toNat = item := List.take_of_length_le hitem.le
  rw [slot, hoff, pushed_itemSize, pushed, hall, ← hitem]
  exact slice_splice_self (by omega)

/-- A slot whose index has another mask is left alone. -/
theorem slot_pushed_of_mask_ne {i : UInt16} (hitem : r.itemSize.toNat ≤ item.length)
    (hfits : r.offset r.writeIndex + r.itemSize.toNat ≤ r.buffer.length)
    (hne : r.mask i.toUInt32 ≠ r.mask r.writeIndex.toUInt32) :
    (r.pushed item).slot i = r.slot i := by
  apply slice_ext
  intro p hlo hhi
  apply pushed_frame hitem hfits
  rintro ⟨hlo', hhi'⟩
  have hoff : (r.pushed item).offset i = r.offset i := rfl
  rw [hoff, pushed_itemSize] at hhi
  rw [hoff] at hlo
  rw [offset_eq_mask] at hlo hhi hlo' hhi'
  rcases mul_disjoint (n := r.itemSize.toNat) (mt UInt32.toNat_inj.mp hne) with h | h <;> omega

theorem overwrites_iff :
    r.Overwrites ↔ r.itemSize ≠ 0 ∧ ∃ k < r.size.toNat,
      r.mask (r.readIndex + UInt16.ofNat k).toUInt32 = r.mask r.writeIndex.toUInt32 := by
  simp only [Overwrites, inSlot_clash_iff]
  constructor
  · rintro ⟨k, hk, hsize, heq⟩
    exact ⟨hsize, k, hk, heq⟩
  · rintro ⟨hsize, k, hk, heq⟩
    exact ⟨k, hk, hsize, heq⟩

/-! ## When push_back appends -/

/-- What a harmless `push_back` needs: it passes the assertion or there is none, the size
does not wrap to zero, and the slot to be written exists and holds no stored message. -/
def HasRoom (b : Build) (r : OsRing) : Prop :=
  (b.ndebug = true ∨ r.full = false) ∧ r.size.toNat < 65535 ∧
    (r.itemSize = 0 ∨ r.itemCount ≠ 0 ∧ ∀ k < r.size.toNat,
      r.mask (r.readIndex + UInt16.ofNat k).toUInt32 ≠ r.mask r.writeIndex.toUInt32)

instance (b : Build) (r : OsRing) : Decidable (HasRoom b r) :=
  inferInstanceAs (Decidable (_ ∧ _ ∧ (_ ∨ _ ∧ ∀ k < r.size.toNat, _)))

theorem slot_free_iff :
    (r.itemSize = 0 ∨ r.itemCount ≠ 0 ∧ ∀ k < r.size.toNat,
        r.mask (r.readIndex + UInt16.ofNat k).toUInt32 ≠ r.mask r.writeIndex.toUInt32) ↔
      (r.itemSize = 0 ∨ r.itemCount ≠ 0) ∧ ¬r.Overwrites := by
  rw [overwrites_iff]
  constructor
  · rintro (hzero | ⟨hcount, hfree⟩)
    · exact ⟨.inl hzero, fun h => h.1 hzero⟩
    · exact ⟨.inr hcount, fun ⟨_, k, hk, heq⟩ => hfree k hk heq⟩
  · rintro ⟨hslot, hkept⟩
    by_cases hzero : r.itemSize = 0
    · exact .inl hzero
    · exact .inr ⟨hslot.resolve_left hzero, fun k hk heq => hkept ⟨hzero, k, hk, heq⟩⟩

/-- When `push_back` returns at all. -/
theorem pushBack_eq_ok {r' : OsRing} :
    r.pushBack b item = .ok r' ↔ (b.ndebug = true ∨ r.full = false) ∧
      (r.itemSize.toNat ≤ item.length ∧
        r.offset r.writeIndex + r.itemSize.toNat ≤ r.buffer.length) ∧ r' = r.pushed item := by
  cases hassert : b.assert (!r.full) with
  | error e =>
    -- the assertion fails, and with it the call
    have hfail : ¬(b.ndebug = true ∨ r.full = false) := by
      intro hpass
      have hok : b.assert (!r.full) = .ok () := by
        rw [Build.assert_eq_ok]
        simpa using hpass
      rw [hok] at hassert
      cases hassert
    have hpush : r.pushBack b item = .error e := by
      simp only [pushBack, hassert, bind, Except.bind]
    rw [hpush]
    constructor
    · intro h
      cases h
    · rintro ⟨hpass, -⟩
      exact absurd hpass hfail
  | ok u =>
    have hpass : b.ndebug = true ∨ r.full = false := by
      simpa using Build.assert_eq_ok.mp hassert
    -- `memcpy` reads the item and writes the slot, if both are long enough
    by_cases hfits : r.itemSize.toNat ≤ item.length ∧
        r.offset r.writeIndex + r.itemSize.toNat ≤ r.buffer.length
    · have hpush : r.pushBack b item = .ok (r.pushed item) := by
        simp [pushBack, hassert, bind, Except.bind, memcpy, hfits, pure, Except.pure, pushed]
      rw [hpush, Except.ok.injEq]
      constructor
      · rintro rfl
        exact ⟨hpass, hfits, rfl⟩
      · rintro ⟨-, -, rfl⟩
        rfl
    · simp [pushBack, hassert, bind, Except.bind, memcpy, hfits]

/-- Without an overwritten message, what is stored afterwards is what was stored before
and the new message, as long as the size does not wrap. -/
theorem contents_pushed_of_not_overwrites (hitem : item.length = r.itemSize.toNat)
    (hfits : r.offset r.writeIndex + r.itemSize.toNat ≤ r.buffer.length)
    (hkept : ¬r.Overwrites) (hsize : r.size.toNat < 65535) :
    (r.pushed item).contents = r.contents ++ [item] := by
  have hsize' : (r.pushed item).size.toNat = r.size.toNat + 1 := by
    rw [size_pushed]
    omega
  have hwrite : r.readIndex + UInt16.ofNat r.size.toNat = r.writeIndex := by
    rw [← UInt16.toNat_inj, toNat_add_ofNat, toNat_writeIndex]
  rw [contents, hsize', List.range_succ, List.map_append, List.map_singleton]
  congr 1
  · -- the stored messages: all their bytes are outside the written slot
    apply List.map_congr_left
    intro k hk
    apply slice_ext
    intro p hlo hhi
    apply pushed_frame hitem.ge hfits
    intro hp
    exact hkept ⟨k, List.mem_range.mp hk, p, ⟨hlo, hhi⟩, hp⟩
  · rw [pushed_readIndex, hwrite, slot_pushed_of_mask_eq hitem hfits rfl]

/-- **When push_back appends** behind the stored messages and overwrites none of them, in
any build, for any count and in any state. -/
theorem Allocated.pushBack_appends_iff (hr : Allocated r)
    (hitem : item.length = r.itemSize.toNat) :
    (∃ r', r.pushBack b item = .ok r' ∧ r'.contents = r.contents ++ [item] ∧ ¬r.Overwrites) ↔
      HasRoom b r := by
  constructor
  · rintro ⟨r', hpush, hcontents, hkept⟩
    obtain ⟨hpass, ⟨-, hfits⟩, rfl⟩ := pushBack_eq_ok.mp hpush
    have hslot := (hr.offset_add_le_iff _).mp hfits
    have hlen := congrArg List.length hcontents
    rw [length_contents, List.length_append, length_contents, size_pushed,
      List.length_singleton] at hlen
    exact ⟨hpass, by omega, slot_free_iff.mpr ⟨hslot, hkept⟩⟩
  · rintro ⟨hpass, hsize, hfree⟩
    obtain ⟨hslot, hkept⟩ := slot_free_iff.mp hfree
    have hfits := (hr.offset_add_le_iff r.writeIndex).mpr hslot
    exact ⟨_, pushBack_eq_ok.mpr ⟨hpass, ⟨hitem.ge, hfits⟩, rfl⟩,
      contents_pushed_of_not_overwrites hitem hfits hkept hsize, hkept⟩

/-- In a ring of an admissible count the slot to be written is free as long as fewer than
`itemCount` messages are stored. -/
theorem mask_free_iff (hcount : countOk r.itemCount = true) :
    (∀ k < r.size.toNat,
        r.mask (r.readIndex + UInt16.ofNat k).toUInt32 ≠ r.mask r.writeIndex.toUInt32) ↔
      r.size.toNat < r.itemCount.toNat := by
  have hpos := countOk_pos hcount
  have hmask : ∀ k, (r.mask (r.readIndex + UInt16.ofNat k).toUInt32).toNat =
      (r.readIndex.toNat + k) % 65536 % r.itemCount.toNat := by
    intro k
    rw [toNat_mask hcount, toNat_add_ofNat]
  have hwrite : (r.mask r.writeIndex.toUInt32).toNat =
      (r.readIndex.toNat + r.size.toNat) % 65536 % r.itemCount.toNat := by
    rw [toNat_mask hcount, toNat_writeIndex]
  constructor
  · intro hfree
    by_contra hover
    -- the message that is one capacity behind the write index lies in its slot
    have hk : r.size.toNat - r.itemCount.toNat < r.size.toNat := by omega
    apply hfree _ hk
    rw [← UInt32.toNat_inj, hmask, hwrite, Nat.mod_mod_of_dvd _ (countOk_dvd hcount),
      Nat.mod_mod_of_dvd _ (countOk_dvd hcount)]
    have hsum : r.readIndex.toNat + r.size.toNat =
        r.readIndex.toNat + (r.size.toNat - r.itemCount.toNat) + r.itemCount.toNat := by
      omega
    rw [hsum, Nat.add_mod_right]
  · intro hroom k hk heq
    rw [← UInt32.toNat_inj, hmask, hwrite] at heq
    have := FreeRunning.slot_inj (countOk_dvd hcount) (hk.trans hroom) hroom heq
    omega

/-- As long as a slot is free, a ring of an admissible count has room, and so has any ring
of messages without bytes. -/
theorem hasRoom_of_lt (hroom : r.size.toNat < r.itemCount.toNat)
    (hok : r.itemSize = 0 ∨ countOk r.itemCount = true) : HasRoom b r := by
  have hlt := r.itemCount.toNat_lt
  have hfull : r.full = false := by
    rw [← Bool.not_eq_true, full_iff]
    exact hroom.ne
  refine ⟨.inr hfull, by omega, ?_⟩
  rcases hok with hzero | hcount
  · exact .inl hzero
  · exact .inr ⟨countOk_ne_zero hcount, (mask_free_iff hcount).mpr hroom⟩

/-- `HasRoom` for a queue of an admissible count: there is a free slot, or the messages
have no bytes and nothing checks their number. -/
theorem hasRoom_iff (hcount : countOk r.itemCount = true)
    (hvalid : b.ndebug = false → r.size.toNat ≤ r.itemCount.toNat) :
    HasRoom b r ↔ r.size.toNat < r.itemCount.toNat ∨
      (b.ndebug = true ∧ r.itemSize = 0 ∧ r.size.toNat < 65535) := by
  constructor
  · rintro ⟨hpass, hsize, hzero | ⟨-, hfree⟩⟩
    · cases hb : b.ndebug with
      | false =>
        rw [hb] at hpass
        have hfull := hpass.resolve_left Bool.false_ne_true
        rw [← Bool.not_eq_true, full_iff] at hfull
        exact .inl (lt_of_le_of_ne (hvalid hb) hfull)
      | true => exact .inr ⟨rfl, hzero, hsize⟩
    · exact .inl ((mask_free_iff hcount).mp hfree)
  · rintro (hroom | ⟨hb, hzero, hsize⟩)
    · exact hasRoom_of_lt hroom (.inr hcount)
    · exact ⟨.inl hb, hsize, .inl hzero⟩

end Poski.OsRing
