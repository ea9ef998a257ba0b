import Poski.Osal.QueueStorage
import Poski.Posix.Queue

/-!
# What a New POSIX Queue Stores

`pos_queue_init` takes `size_t` arguments and hands them to a constructor whose parameters
are 16 bits wide, so the ring may be smaller than what was asked for; and with `NDEBUG`
nobody checks that the count is a power of two. `POS_OK` is returned all the same.

- `putAll_of_room`, `getAll_contents` : what goes in comes out, as long as the ring has room
- `le_size_of_getAll` : a ring gives out no more messages than its 16-bit size counts
- `slot_putAll_clash` : a slot that is written twice
- `storesAll_iff`
-/

namespace Poski.Posix

open OsRing

variable {b : Build} {msgq msgq' : PosQueue} {r : OsRing} {item out : List UInt8}
  {items outs : List (List UInt8)} {tmo : UInt32}

/-! ## Calls that return POS_OK -/

theorem posQueuePut_eq_ok {err : PosError} {signal : Option Signal} (hq : msgq.q = some r) :
    posQueuePut b msgq item = .ok (msgq', err, signal) ↔
      ∃ r', r.pushBack b item = .ok r' ∧ msgq' = { msgq with q := some r' } ∧ err = .ok ∧
        signal = msgq.sigCb.map fun cb => ⟨cb, msgq.sigArg⟩ := by
  cases hpush : r.pushBack b item with
  | error e => simp [posQueuePut, hq, RingPthread.put, hpush, bind, Except.bind]
  | ok r' =>
    simp [posQueuePut, hq, RingPthread.put, hpush, bind, Except.bind, pure, Except.pure, eq_comm]

theorem posQueueGet_eq_ok (hq : msgq.q = some r) :
    posQueueGet b msgq out tmo = .ok (msgq', item, .ok) ↔
      ∃ r', RingPthread.get b r out tmo = .ok (r', item, true) ∧
        msgq' = { msgq with q := some r' } := by
  cases hget : RingPthread.get b r out tmo with
  | error e => simp [posQueueGet, hq, hget, bind, Except.bind]
  | ok res =>
    obtain ⟨r', item', success⟩ := res
    cases success <;>
      simp [posQueueGet, hq, hget, bind, Except.bind, pure, Except.pure, eq_comm, and_comm]

/-! ## Enough room -/

/-- Messages that fit are accepted, one after the other. -/
theorem putAll_of_room (hr : r.Allocated) (hok : r.itemSize = 0 ∨ countOk r.itemCount = true)
    (hlen : ∀ item ∈ items, item.length = r.itemSize.toNat)
    (hroom : r.size.toNat + items.length ≤ r.itemCount.toNat) (hq : msgq.q = some r) :
    ∃ r', putAll (posQueuePut b) msgq items = some { msgq with q := some r' } ∧
      r'.contents = r.contents ++ items ∧ r'.Allocated ∧ r'.itemSize = r.itemSize ∧
      r'.itemCount = r.itemCount := by
  induction items generalizing r msgq with
  | nil =>
    refine ⟨r, ?_, (List.append_nil _).symm, hr, rfl, rfl⟩
    rw [putAll, ← hq]
  | cons item items ih =>
    have hitem : item.length = r.itemSize.toNat := hlen item List.mem_cons_self
    rw [List.length_cons] at hroom
    -- the first message, which leaves room for the others
    have hfree : r.HasRoom b := hasRoom_of_lt (by omega) hok
    obtain ⟨r₁, hpush, hcontents, -⟩ := (hr.pushBack_appends_iff hitem).mpr hfree
    obtain ⟨-, ⟨-, hfits⟩, rfl⟩ := pushBack_eq_ok.mp hpush
    have hsize : (r.pushed item).size.toNat = r.size.toNat + 1 := by
      rw [← length_contents, hcontents, List.length_append, length_contents]
      rfl
    have hq' : ({ msgq with q := some (r.pushed item) } : PosQueue).q = some (r.pushed item) := rfl
    have hroom' : (r.pushed item).size.toNat + items.length ≤ r.itemCount.toNat := by
      rw [hsize]
      omega
    obtain ⟨r', hput, hcontents', halloc, hsize', hcount'⟩ :=
      ih (hr.pushed hitem.ge hfits) hok (fun i hi => hlen i (List.mem_cons_of_mem _ hi))
        hroom' hq'
    refine ⟨r', ?_, ?_, halloc, hsize', hcount'⟩
    · exact putAll_cons_eq_some.mpr
        ⟨_, _, (posQueuePut_eq_ok hq).mpr ⟨_, hpush, rfl, rfl, rfl⟩, hput⟩
    · rw [hcontents', hcontents, List.append_assoc]
      rfl

/-- The stored messages are got back, one after the other. -/
theorem getAll_contents (tmo : UInt32) (hr : r.Allocated) (hslot : r.itemSize = 0 ∨ r.itemCount ≠ 0)
    (hlen : ∀ out ∈ outs, out.length = r.itemSize.toNat) (hcount : outs.length = r.size.toNat)
    (hq : msgq.q = some r) : getAll (posQueueGet b) tmo msgq outs = some r.contents := by
  induction outs generalizing r msgq with
  | nil =>
    have hnil : r.contents = [] := List.eq_nil_of_length_eq_zero (by simpa using hcount.symm)
    rw [getAll, hnil]
  | cons out outs ih =>
    have hout : out.length = r.itemSize.toNat := hlen out List.mem_cons_self
    have hne : r.size.toNat ≠ 0 := by
      rw [← hcount]
      exact Nat.succ_ne_zero _
    -- the oldest message, which `get` takes without waiting
    have hfits := (hr.offset_add_le_iff r.readIndex).mpr hslot
    have hget := RingPthread.get_of_size_ne_zero (b := b) tmo hne hfits hout.ge
    rw [← hout, List.drop_length, List.append_nil] at hget
    have hcount' : outs.length = r.popped.size.toNat := by
      rw [size_popped hne, ← hcount, List.length_cons, Nat.add_sub_cancel]
    have hq' : ({ msgq with q := some r.popped } : PosQueue).q = some r.popped := rfl
    have hrest := ih (r := r.popped) hr hslot (fun o ho => hlen o (List.mem_cons_of_mem _ ho))
      hcount' hq'
    rw [contents_popped hne]
    exact getAll_cons_eq_some.mpr
      ⟨_, _, _, (posQueueGet_eq_ok hq).mpr ⟨_, hget, rfl⟩, hrest, rfl⟩

/-! ## Too many messages, or too large ones -/

/-- Sizes are counted modulo `2 ^ 16`; what else a put leaves alone. -/
theorem ring_of_putAll (hput : putAll (posQueuePut b) msgq items = some msgq')
    (hq : msgq.q = some r) :
    ∃ r', msgq'.q = some r' ∧ r'.size.toNat = (r.size.toNat + items.length) % 65536 ∧
      r'.itemSize = r.itemSize ∧ r'.itemCount = r.itemCount ∧ r'.readIndex = r.readIndex := by
  induction items generalizing r msgq with
  | nil =>
    rw [putAll, Option.some_inj] at hput
    have hlt := r.size.toNat_lt
    refine ⟨r, hput ▸ hq, ?_, rfl, rfl, rfl⟩
    rw [List.length_nil, Nat.add_zero, Nat.mod_eq_of_lt hlt]
  | cons item items ih =>
    obtain ⟨msgq₁, signal, hfirst, hrest⟩ := putAll_cons_eq_some.mp hput
    obtain ⟨r₁, hpush, rfl, -, -⟩ := (posQueuePut_eq_ok hq).mp hfirst
    obtain ⟨-, -, rfl⟩ := pushBack_eq_ok.mp hpush
    obtain ⟨r', hq', hsize, hitemSize, hitemCount, hread⟩ := ih hrest rfl
    refine ⟨r', hq', ?_, hitemSize, hitemCount, hread⟩
    rw [hsize, size_pushed, List.length_cons]
    omega

/-- No more messages are got than the ring counts. -/
theorem le_size_of_getAll (hget : getAll (posQueueGet b) tmo msgq outs = some items)
    (hq : msgq.q = some r) : outs.length ≤ r.size.toNat := by
  induction outs generalizing r msgq items with
  | nil => exact Nat.zero_le _
  | cons out outs ih =>
    obtain ⟨msgq₁, item, rest, hfirst, hrest, -⟩ := getAll_cons_eq_some.mp hget
    obtain ⟨r₁, hget₁, rfl⟩ := (posQueueGet_eq_ok hq).mp hfirst
    obtain ⟨hne, rfl, -⟩ := RingPthread.get_eq_ok_true hget₁
    have hle := ih hrest rfl
    rw [size_popped hne] at hle
    rw [List.length_cons]
    omega

/-- The first message got consists of the bytes of a slot, and of what was in the caller's
buffer behind them. -/
theorem head_of_getAll (hget : getAll (posQueueGet b) tmo msgq (out :: outs) = some items)
    (hq : msgq.q = some r) :
    (r.slot r.readIndex).length = r.itemSize.toNat ∧
      items.head? = some (r.slot r.readIndex ++ out.drop r.itemSize.toNat) := by
  obtain ⟨msgq₁, item, rest, hfirst, -, rfl⟩ := getAll_cons_eq_some.mp hget
  obtain ⟨r₁, hget₁, -⟩ := (posQueueGet_eq_ok hq).mp hfirst
  obtain ⟨-, -, hlen, rfl⟩ := RingPthread.get_eq_ok_true hget₁
  exact ⟨hlen, rfl⟩

/-! ## A slot that is written twice -/

/-- Putting the same message again and again does not change a slot that holds it. -/
theorem slot_putAll_same {i : UInt16} (hput : putAll (posQueuePut b) msgq items = some msgq')
    (hsame : ∀ x ∈ items, x = item) (hitem : item.length = r.itemSize.toNat)
    (hslot : r.slot i = item) (hq : msgq.q = some r) :
    ∃ r', msgq'.q = some r' ∧ r'.slot i = item := by
  induction items generalizing r msgq with
  | nil =>
    rw [putAll, Option.some_inj] at hput
    exact ⟨r, hput ▸ hq, hslot⟩
  | cons x items ih =>
    obtain ⟨msgq₁, signal, hfirst, hrest⟩ := putAll_cons_eq_some.mp hput
    obtain ⟨r₁, hpush, rfl, -, -⟩ := (posQueuePut_eq_ok hq).mp hfirst
    obtain ⟨-, ⟨-, hfits⟩, rfl⟩ := pushBack_eq_ok.mp hpush
    have hx : x = item := hsame x List.mem_cons_self
    subst hx
    have hslot' : (r.pushed x).slot i = x := by
      by_cases hmask : r.mask i.toUInt32 = r.mask r.writeIndex.toUInt32
      · exact slot_pushed_of_mask_eq hitem hfits hmask
      · rw [slot_pushed_of_mask_ne hitem.ge hfits hmask, hslot]
    exact ih (r := r.pushed x) hrest (fun y hy => hsame y (List.mem_cons_of_mem _ hy)) hitem
      hslot' rfl

/-- If one of the write indices has the mask of `i`, the slot of `i` holds the message. -/
theorem slot_putAll_clash {i : UInt16} {j : ℕ}
    (hput : putAll (posQueuePut b) msgq items = some msgq') (hsame : ∀ x ∈ items, x = item)
    (hitem : item.length = r.itemSize.toNat) (hj : j < items.length)
    (hmask : r.mask i.toUInt32 = r.mask (r.writeIndex + UInt16.ofNat j).toUInt32)
    (hq : msgq.q = some r) : ∃ r', msgq'.q = some r' ∧ r'.slot i = item := by
  induction items generalizing r msgq j with
  | nil => exact absurd hj (Nat.not_lt_zero j)
  | cons x items ih =>
    obtain ⟨msgq₁, signal, hfirst, hrest⟩ := putAll_cons_eq_some.mp hput
    obtain ⟨r₁, hpush, rfl, -, -⟩ := (posQueuePut_eq_ok hq).mp hfirst
    obtain ⟨-, ⟨-, hfits⟩, rfl⟩ := pushBack_eq_ok.mp hpush
    have hx : x = item := hsame x List.mem_cons_self
    subst hx
    have hrest' : ∀ y ∈ items, y = x := fun y hy => hsame y (List.mem_cons_of_mem _ hy)
    cases j with
    | zero =>
      -- it is written now, and all that is written later is the same
      have hslot : (r.pushed x).slot i = x := by
        apply slot_pushed_of_mask_eq hitem hfits
        rw [hmask]
        simp
      exact slot_putAll_same (r := r.pushed x) hrest hrest' hitem hslot rfl
    | succ j =>
      rw [← pushed_writeIndex_add r x] at hmask
      exact ih (r := r.pushed x) hrest hrest' hitem (Nat.lt_of_succ_lt_succ hj) hmask rfl

/-! ## When a new queue stores what was asked for -/

variable {heap : Allocator} {msgSize maxMsgs : UInt64}

/-- What a successful `pos_queue_init` leaves behind: a ring whose sizes are the arguments
modulo `2 ^ 16`. -/
theorem posQueueInit_eq_ok (h : posQueueInit b heap msgSize maxMsgs = .ok (msgq, .ok)) :
    ∃ r, msgq.q = some r ∧ r.Allocated ∧ r.size.toNat = 0 ∧ r.contents = [] ∧
      r.readIndex = 0 ∧ r.writeIndex = 0 ∧ r.itemSize.toNat = msgSize.toNat % 65536 ∧
      r.itemCount.toNat = maxMsgs.toNat % 65536 ∧
      (b.ndebug = true ∨ countOk r.itemCount = true) := by
  unfold posQueueInit at h
  obtain ⟨r, hnew, h⟩ := bind_eq_ok.mp h
  cases h
  obtain ⟨hpass, hsize, hcount, hread, hwrite, hlen⟩ := construct_eq_ok hnew
  have hzero : r.size.toNat = 0 := by
    rw [size, hread, hwrite]
    rfl
  refine ⟨r, rfl, ?_, hzero, ?_, hread, hwrite, ?_, ?_, ?_⟩
  · rw [Allocated, hlen, hsize, hcount]
  · exact List.eq_nil_of_length_eq_zero (by rw [length_contents, hzero])
  · rw [hsize, UInt64.toNat_toUInt16]
  · rw [hcount, UInt64.toNat_toUInt16]
  · rwa [hcount]

/-- `new` does not return a null pointer. -/
theorem posQueueInit_status {err : PosError}
    (h : posQueueInit b heap msgSize maxMsgs = .ok (msgq, err)) : err = .ok := by
  obtain ⟨r, -, h⟩ := bind_eq_ok.mp h
  cases h
  rfl

/-- The conversion of a `size_t` argument to a 16-bit parameter. -/
theorem eq_toUInt16 {n : UInt16} {m : UInt64} (h : n.toNat = m.toNat % 65536) :
    n = m.toUInt16 := by
  rw [← UInt16.toNat_inj, h, UInt64.toNat_toUInt16]

/-- Sizes that 16 bits can hold, and a count that is a power of two unless the messages
have no bytes: the condition under which a new POSIX queue stores what it was made for. -/
def Storable (msgSize maxMsgs : UInt64) : Prop :=
  maxMsgs.toNat = 0 ∨ msgSize.toNat < 65536 ∧ maxMsgs.toNat < 65536 ∧
    (msgSize.toNat = 0 ∨ countOk maxMsgs.toUInt16 = true)

theorem storesAll_of_storable (h : posQueueInit b heap msgSize maxMsgs = .ok (msgq, .ok))
    (hfit : Storable msgSize maxMsgs) :
    StoresAll (posQueuePut b) (posQueueGet b) msgq msgSize.toNat maxMsgs.toNat := by
  intro items outs tmo hitems hitemSize houts houtSize
  obtain ⟨r, hq, halloc, hsize, hcontents, -, -, hrsize, hrcount, -⟩ := posQueueInit_eq_ok h
  rcases hfit with hzero | ⟨hsmall, hfew, hok⟩
  · -- a queue of no messages stores them all
    have hnil : items = [] := List.eq_nil_of_length_eq_zero (hitems.trans hzero)
    have hnil' : outs = [] := List.eq_nil_of_length_eq_zero (houts.trans hzero)
    subst hnil hnil'
    exact ⟨msgq, rfl, rfl⟩
  · -- the conversions lose nothing
    have hcount := eq_toUInt16 hrcount
    rw [Nat.mod_eq_of_lt hsmall] at hrsize
    rw [Nat.mod_eq_of_lt hfew] at hrcount
    have hok' : r.itemSize = 0 ∨ countOk r.itemCount = true := by
      rcases hok with hzero | hadmissible
      · left
        rw [← UInt16.toNat_inj, hrsize, hzero]
        rfl
      · right
        rwa [hcount]
    obtain ⟨r', hput, hcontents', halloc', hsize', hcount'⟩ :=
      putAll_of_room (b := b) halloc hok' (fun i hi => by rw [hitemSize i hi, hrsize])
        (by rw [hsize, hitems, hrcount, Nat.zero_add]) hq
    rw [hcontents, List.nil_append] at hcontents'
    have hslot : r'.itemSize = 0 ∨ r'.itemCount ≠ 0 := by
      rw [hsize', hcount']
      exact hok'.imp_right countOk_ne_zero
    have hq' : ({ msgq with q := some r' } : PosQueue).q = some r' := rfl
    have hget := getAll_contents (b := b) tmo halloc' hslot
      (fun o ho => by rw [houtSize o ho, hsize', hrsize])
      (by rw [houts, ← length_contents, hcontents', hitems]) hq'
    rw [hcontents'] at hget
    exact ⟨_, hput, hget⟩

section

variable (h : posQueueInit b heap msgSize maxMsgs = .ok (msgq, .ok))
  (hall : StoresAll (posQueuePut b) (posQueueGet b) msgq msgSize.toNat maxMsgs.toNat)

include h hall

/-- The ring cannot count more than `2 ^ 16 - 1` messages. -/
theorem maxMsgs_lt_of_storesAll : maxMsgs.toNat < 65536 := by
  obtain ⟨r, hq, -, hsize, -⟩ := posQueueInit_eq_ok h
  obtain ⟨msgq', hput, hget⟩ := hall (List.replicate maxMsgs.toNat (List.replicate msgSize.toNat 0))
    (List.replicate maxMsgs.toNat (List.replicate msgSize.toNat 0)) 0 (by simp) (by simp)
    (by simp) (by simp)
  obtain ⟨r', hq', hsize', -⟩ := ring_of_putAll hput hq
  have hle := le_size_of_getAll hget hq'
  rw [hsize', hsize, List.length_replicate] at hle
  omega

/-- The bytes of a message beyond the ring's item size do not arrive. -/
theorem msgSize_lt_of_storesAll (hsome : maxMsgs.toNat ≠ 0) : msgSize.toNat < 65536 := by
  obtain ⟨n, hn⟩ := Nat.exists_eq_succ_of_ne_zero hsome
  obtain ⟨r, hq, -, -, -, -, -, hrsize, -⟩ := posQueueInit_eq_ok h
  obtain ⟨msgq', hput, hget⟩ := hall (List.replicate maxMsgs.toNat (List.replicate msgSize.toNat 1))
    (List.replicate maxMsgs.toNat (List.replicate msgSize.toNat 0)) 0 (by simp) (by simp)
    (by simp) (by simp)
  obtain ⟨r', hq', -, hsize', -⟩ := ring_of_putAll hput hq
  rw [hn, List.replicate_succ, List.replicate_succ] at hget
  obtain ⟨-, hhead⟩ := head_of_getAll hget hq'
  rw [hsize', hrsize, List.head?_cons, Option.some_inj] at hhead
  by_contra hlarge
  -- a byte of the caller's buffer that is still zero
  have hzero : (0 : UInt8) ∈ (List.replicate msgSize.toNat 0).drop (msgSize.toNat % 65536) := by
    rw [List.drop_replicate, List.mem_replicate]
    exact ⟨by omega, rfl⟩
  have hone : (0 : UInt8) ∈ List.replicate msgSize.toNat 1 := by
    rw [hhead]
    exact List.mem_append_right _ hzero
  exact absurd (List.eq_of_mem_replicate hone) (by decide)

/-- Under a mask that is no power of two a later message overwrites the first one. -/
theorem countOk_of_storesAll (hsome : maxMsgs.toNat ≠ 0) (hbytes : msgSize.toNat ≠ 0) :
    countOk maxMsgs.toUInt16 = true := by
  obtain ⟨n, hn⟩ := Nat.exists_eq_succ_of_ne_zero hsome
  have hfew := maxMsgs_lt_of_storesAll h hall
  have hsmall := msgSize_lt_of_storesAll h hall hsome
  obtain ⟨r, hq, -, -, -, hread, hwrite, hrsize, hrcount, -⟩ := posQueueInit_eq_ok h
  rw [← eq_toUInt16 hrcount]
  rw [Nat.mod_eq_of_lt hfew] at hrcount
  rw [Nat.mod_eq_of_lt hsmall] at hrsize
  by_contra hbad
  obtain ⟨j, hj, hjlt, hmask⟩ := exists_mask_eq (by omega) hbad
  -- first a message of zeros, then only messages of ones
  obtain ⟨msgq', hput, hget⟩ :=
    hall (List.replicate msgSize.toNat 0 :: List.replicate n (List.replicate msgSize.toNat 1))
      (List.replicate maxMsgs.toNat (List.replicate msgSize.toNat 0)) 0 (by simp [hn])
      (by simp) (by simp) (by simp)
  obtain ⟨r', hq', -, hsize', -, hread'⟩ := ring_of_putAll hput hq
  obtain ⟨msgq₁, signal, hfirst, hrest⟩ := putAll_cons_eq_some.mp hput
  obtain ⟨r₁, hpush, rfl, -, -⟩ := (posQueuePut_eq_ok hq).mp hfirst
  obtain ⟨-, -, rfl⟩ := pushBack_eq_ok.mp hpush
  have hindex : (r.pushed (List.replicate msgSize.toNat 0)).writeIndex + UInt16.ofNat (j - 1) =
      UInt16.ofNat j := by
    rw [pushed_writeIndex_add, hwrite, Nat.sub_add_cancel hj, UInt16.zero_add]
  have hmask' := hmask
  rw [← hindex] at hmask'
  obtain ⟨r₂, hq₂, hslot⟩ := slot_putAll_clash
    (r := r.pushed (List.replicate msgSize.toNat 0)) hrest (fun x hx => List.eq_of_mem_replicate hx)
    (by rw [List.length_replicate]; exact hrsize.symm)
    (by rw [List.length_replicate]; omega) hmask' rfl
  cases hq'.symm.trans hq₂
  rw [hn, List.replicate_succ] at hget
  obtain ⟨-, hhead⟩ := head_of_getAll hget hq'
  rw [hread', hread, hslot, hsize', hrsize, List.head?_cons, Option.some_inj,
    List.drop_of_length_le (by simp), List.append_nil] at hhead
  have hone : (0 : UInt8) ∈ List.replicate msgSize.toNat 1 := by
    rw [← hhead, List.mem_replicate]
    exact ⟨hbytes, rfl⟩
  exact absurd (List.eq_of_mem_replicate hone) (by decide)

end

/-- **When a new POSIX queue stores what it was made for**: exactly when the request is
storable. -/
theorem storesAll_iff (h : posQueueInit b heap msgSize maxMsgs = .ok (msgq, .ok)) :
    StoresAll (posQueuePut b) (posQueueGet b) msgq msgSize.toNat maxMsgs.toNat ↔
      Storable msgSize maxMsgs := by
  constructor
  · intro hall
    by_cases hzero : maxMsgs.toNat = 0
    · exact .inl hzero
    · refine .inr ⟨msgSize_lt_of_storesAll h hall hzero, maxMsgs_lt_of_storesAll h hall, ?_⟩
      by_cases hbytes : msgSize.toNat = 0
      · exact .inl hbytes
      · exact .inr (countOk_of_storesAll h hall hzero hbytes)
  · exact storesAll_of_storable h

end Poski.Posix
