import Poski.Osal.QueueStorage

/-!
# The Zephyr Queue

`os_queue.c` of the Zephyr port: a `k_msgq` over a buffer of `msg_size * max_msgs` bytes,
where the product is taken in a 32-bit `size_t`.

The kernel's message queue is a parameter. What is relied on (`KMsgq.Documented`) is that
it keeps its messages in consecutive slots of the buffer, `msg_size * max_msgs` bytes in
all, and gives them out in order; a slot beyond the end of the buffer is an access outside
of it.

- `storesAll_iff` : a new queue stores what it was made for exactly when the product fits
-/

namespace Poski.Zephyr

/-! ## The kernel's message queue -/

/-- `k_timeout_t`. -/
inductive KTimeout where
  | forever
  | noWait
  | msec (ms : UInt32)
  deriving DecidableEq, Repr

def EAGAIN : Int := 11

/-- `k_msgq_init`, `k_msgq_put` (with `K_NO_WAIT`) and `k_msgq_get`. -/
structure KMsgq (K : Type) where
  init : List UInt8 → UInt32 → UInt32 → K
  put : K → List UInt8 → Except Halt (K × Int)
  get : K → List UInt8 → KTimeout → Except Halt (K × List UInt8 × Int)

/-- What a `k_msgq` is about: the length of its buffer, the sizes it was initialised with,
the stored messages, and the number of the slot that the next message goes to. -/
structure KState where
  bufferLen : ℕ
  msgSize : ℕ
  maxMsgs : ℕ
  stored : List (List UInt8)
  next : ℕ
  deriving DecidableEq, Repr

/-- A message has been stored in the next slot. -/
def KState.push (s : KState) (data : List UInt8) : KState :=
  { s with stored := s.stored ++ [data], next := (s.next + 1) % s.maxMsgs }

/-- The documented behaviour of `kernel`, whose state `k` is about `s` if `R k s`. -/
structure KMsgq.Documented {K : Type} (kernel : KMsgq K) (R : K → KState → Prop) : Prop where
  init : ∀ buffer msgSize maxMsgs,
    R (kernel.init buffer msgSize maxMsgs) ⟨buffer.length, msgSize.toNat, maxMsgs.toNat, [], 0⟩
  put_inside : ∀ k s data, R k s → s.stored.length < s.maxMsgs → data.length = s.msgSize →
    (s.next + 1) * s.msgSize ≤ s.bufferLen →
    ∃ k', kernel.put k data = .ok (k', 0) ∧ R k' (s.push data)
  put_outside : ∀ k s data, R k s → s.stored.length < s.maxMsgs → data.length = s.msgSize →
    s.bufferLen < (s.next + 1) * s.msgSize → kernel.put k data = .error .outOfBounds
  get_stored : ∀ k s out tmo data rest, R k s → s.stored = data :: rest →
    out.length = s.msgSize →
    ∃ k', kernel.get k out tmo = .ok (k', data, 0) ∧ R k' { s with stored := rest }

/-! ## os_queue.c -/

/-- `struct pos_queue`; of the buffer, `none` is `NULL`, and a block is known by its
length. -/
structure PosQueue (K : Type) where
  msgq : K
  buffer : Option ℕ
  sigCb : Option ℕ
  sigArg : ℕ

variable {K : Type} (kernel : KMsgq K)

/-- `pos_queue_init`. -/
def posQueueInit (heap : Allocator) (msgq : PosQueue K) (msgSize maxMsgs : UInt32) :
    PosQueue K × PosError :=
  match heap.request (msgSize * maxMsgs).toNat with
  | none => ({ msgq with buffer := none }, .enomem)
  | some buffer =>
    ({ msgq := kernel.init buffer msgSize maxMsgs, buffer := some buffer.length,
       sigCb := none, sigArg := 0 }, .ok)

/-- `pos_queue_put`; a signal callback is assumed to return. -/
def posQueuePut (msgq : PosQueue K) (data : List UInt8) :
    Except Halt (PosQueue K × PosError × Option Signal) := do
  let (k, err) ← kernel.put msgq.msgq data
  let msgq := { msgq with msgq := k }
  if err = 0 then
    return (msgq, .ok, msgq.sigCb.map fun cb => ⟨cb, msgq.sigArg⟩)
  else if err = -EAGAIN then
    return (msgq, .ebusy, none)
  else
    return (msgq, .error, none)

/-- `pos_queue_get`; `POS_TIME_FOREVER` is `0xFFFFFFFF`. -/
def posQueueGet (msgq : PosQueue K) (data : List UInt8) (timeout : UInt32) :
    Except Halt (PosQueue K × List UInt8 × PosError) := do
  let tmo : KTimeout :=
    if timeout = 0xFFFFFFFF then .forever else if timeout = 0 then .noWait else .msec timeout
  let (k, data, err) ← kernel.get msgq.msgq data tmo
  let msgq := { msgq with msgq := k }
  if err = 0 then
    return (msgq, data, .ok)
  else if err = -EAGAIN then
    return (msgq, data, .timeout)
  else
    return (msgq, data, .error)

/-! ## Filling a queue and emptying it -/

variable {kernel} {R : K → KState → Prop} {msgq msgq' : PosQueue K} {s : KState}
  {items outs : List (List UInt8)}

theorem posQueuePut_of_put {data : List UInt8} {k : K}
    (hput : kernel.put msgq.msgq data = .ok (k, 0)) :
    posQueuePut kernel msgq data =
      .ok ({ msgq with msgq := k }, .ok, msgq.sigCb.map fun cb => ⟨cb, msgq.sigArg⟩) := by
  simp [posQueuePut, hput, bind, Except.bind, pure, Except.pure]

theorem posQueueGet_of_get {out data : List UInt8} (timeout : UInt32)
    (hget : ∀ tmo, ∃ k', kernel.get msgq.msgq out tmo = .ok (k', data, 0) ∧ R k' s) :
    ∃ k', posQueueGet kernel msgq out timeout = .ok ({ msgq with msgq := k' }, data, .ok) ∧
      R k' s := by
  obtain ⟨k', hget, hR⟩ := hget (if timeout = 0xFFFFFFFF then .forever
    else if timeout = 0 then .noWait else .msec timeout)
  refine ⟨k', ?_, hR⟩
  simp [posQueueGet, hget, bind, Except.bind, pure, Except.pure]

/-- As long as no message has been got, the next slot is numbered by the messages stored. -/
theorem push_next (hnext : s.next = s.stored.length) (hroom : s.stored.length + 1 < s.maxMsgs)
    (data : List UInt8) : (s.push data).next = (s.push data).stored.length := by
  simp [KState.push, hnext, Nat.mod_eq_of_lt hroom]

/-- Messages whose slots lie inside the buffer are accepted. -/
theorem putAll_of_inside (hdoc : kernel.Documented R) (hR : R msgq.msgq s)
    (hnext : s.stored.length < s.maxMsgs → s.next = s.stored.length)
    (hlen : ∀ item ∈ items, item.length = s.msgSize)
    (hroom : s.stored.length + items.length ≤ s.maxMsgs)
    (hinside : s.maxMsgs * s.msgSize ≤ s.bufferLen) :
    ∃ msgq' s', putAll (posQueuePut kernel) msgq items = some msgq' ∧ R msgq'.msgq s' ∧
      s'.stored = s.stored ++ items ∧ s'.msgSize = s.msgSize := by
  induction items generalizing msgq s with
  | nil => exact ⟨msgq, s, rfl, hR, (List.append_nil _).symm, rfl⟩
  | cons item items ih =>
    rw [List.length_cons] at hroom
    have hfree : s.stored.length < s.maxMsgs := by omega
    -- the next slot is one of the `maxMsgs` slots inside the buffer
    have hslot : (s.next + 1) * s.msgSize ≤ s.bufferLen := by
      rw [hnext hfree]
      exact Nat.le_trans (Nat.mul_le_mul_right _ hfree) hinside
    obtain ⟨k, hput, hR'⟩ :=
      hdoc.put_inside _ s item hR hfree (hlen item List.mem_cons_self) hslot
    have hR₁ : R ({ msgq with msgq := k } : PosQueue K).msgq (s.push item) := hR'
    have hstored : (s.push item).stored.length = s.stored.length + 1 := by
      simp [KState.push]
    have hnext' : (s.push item).stored.length < (s.push item).maxMsgs →
        (s.push item).next = (s.push item).stored.length := by
      intro hfree'
      rw [hstored] at hfree'
      exact push_next (hnext hfree) hfree' item
    have hroom' : (s.push item).stored.length + items.length ≤ (s.push item).maxMsgs := by
      rw [hstored]
      show s.stored.length + 1 + items.length ≤ s.maxMsgs
      omega
    obtain ⟨msgq', s', hrest, hR'', hstored', hsize'⟩ :=
      ih hR₁ hnext' (fun i hi => hlen i (List.mem_cons_of_mem _ hi)) hroom' hinside
    refine ⟨msgq', s', ?_, hR'', ?_, hsize'⟩
    · exact putAll_cons_eq_some.mpr ⟨_, _, posQueuePut_of_put hput, hrest⟩
    · rw [hstored']
      simp [KState.push]

/-- Messages that are all accepted have their slots inside the buffer. -/
theorem inside_of_putAll (hdoc : kernel.Documented R) (hR : R msgq.msgq s)
    (hnext : s.stored.length < s.maxMsgs → s.next = s.stored.length)
    (hlen : ∀ item ∈ items, item.length = s.msgSize) (hsome : items ≠ [])
    (hroom : s.stored.length + items.length = s.maxMsgs)
    (hput : putAll (posQueuePut kernel) msgq items = some msgq') :
    s.maxMsgs * s.msgSize ≤ s.bufferLen := by
  induction items generalizing msgq s with
  | nil => exact absurd rfl hsome
  | cons item items ih =>
    rw [List.length_cons] at hroom
    have hfree : s.stored.length < s.maxMsgs := by omega
    have hitem := hlen item List.mem_cons_self
    obtain ⟨msgq₁, signal, hfirst, hrest⟩ := putAll_cons_eq_some.mp hput
    by_cases hslot : (s.next + 1) * s.msgSize ≤ s.bufferLen
    · obtain ⟨k, hk, hR'⟩ := hdoc.put_inside _ s item hR hfree hitem hslot
      cases hfirst.symm.trans (posQueuePut_of_put hk)
      have hstored : (s.push item).stored.length = s.stored.length + 1 := by
        simp [KState.push]
      by_cases hlast : items = []
      · -- the last message, in the last slot
        have hmax : s.next + 1 = s.maxMsgs := by
          rw [hnext hfree, ← hroom, hlast]
          rfl
        rwa [hmax] at hslot
      · refine ih (s := s.push item) hR' (fun hfree' => ?_)
          (fun i hi => hlen i (List.mem_cons_of_mem _ hi)) hlast ?_ hrest
        · rw [hstored] at hfree'
          exact push_next (hnext hfree) hfree' item
        · rw [hstored]
          show s.stored.length + 1 + items.length = s.maxMsgs
          omega
    · -- a put outside the buffer does not return
      have herror := hdoc.put_outside _ s item hR hfree hitem (Nat.lt_of_not_le hslot)
      simp [posQueuePut, herror, bind, Except.bind] at hfirst

/-- Stored messages are got back in order. -/
theorem getAll_of_stored (hdoc : kernel.Documented R) (timeout : UInt32)
    (hR : R msgq.msgq s) (hlen : ∀ out ∈ outs, out.length = s.msgSize)
    (hcount : outs.length = s.stored.length) :
    getAll (posQueueGet kernel) timeout msgq outs = some s.stored := by
  induction outs generalizing msgq s with
  | nil =>
    rw [getAll, List.eq_nil_of_length_eq_zero hcount.symm]
  | cons out outs ih =>
    cases hstored : s.stored with
    | nil => simp [hstored] at hcount
    | cons data rest =>
      have hout := hlen out List.mem_cons_self
      obtain ⟨k, hget, hR'⟩ := posQueueGet_of_get timeout
        (fun tmo => hdoc.get_stored _ s out tmo data rest hR hstored hout)
      have hR₁ : R ({ msgq with msgq := k } : PosQueue K).msgq { s with stored := rest } := hR'
      have hcount' : outs.length = rest.length := by simpa [hstored] using hcount
      have hrest := ih hR₁ (fun o ho => hlen o (List.mem_cons_of_mem _ ho)) hcount'
      exact getAll_cons_eq_some.mpr ⟨_, _, _, hget, hrest, rfl⟩

/-! ## When a new queue stores what was asked for -/

/-- **When a new Zephyr queue stores what it was made for**: exactly when the number of
bytes does not wrap in `size_t`. -/
theorem storesAll_iff (hdoc : kernel.Documented R) {heap : Allocator} {msgSize maxMsgs : UInt32}
    (h : posQueueInit kernel heap msgq msgSize maxMsgs = (msgq', .ok)) :
    StoresAll (posQueuePut kernel) (posQueueGet kernel) msgq' msgSize.toNat maxMsgs.toNat ↔
      msgSize.toNat * maxMsgs.toNat < 2 ^ 32 := by
  unfold posQueueInit at h
  split at h
  case h_1 => cases h
  case h_2 buffer hmalloc =>
    cases h
    have hbuffer : buffer.length = msgSize.toNat * maxMsgs.toNat % 2 ^ 32 := by
      rw [heap.length_of_request _ _ hmalloc, UInt32.toNat_mul]
    have hR : R (PosQueue.mk (kernel.init buffer msgSize maxMsgs) (some buffer.length) none 0).msgq
        ⟨buffer.length, msgSize.toNat, maxMsgs.toNat, [], 0⟩ := hdoc.init buffer msgSize maxMsgs
    constructor
    · intro hall
      by_cases hzero : maxMsgs.toNat = 0
      · simp [hzero]
      · obtain ⟨msgq', hput, -⟩ := hall
          (List.replicate maxMsgs.toNat (List.replicate msgSize.toNat 0))
          (List.replicate maxMsgs.toNat (List.replicate msgSize.toNat 0)) 0
          (by simp) (by simp) (by simp) (by simp)
        -- all slots lie inside the buffer, whose length is the product modulo `2 ^ 32`
        have hinside := inside_of_putAll hdoc hR (fun _ => rfl) (by simp) (by simpa using hzero)
          (by simp) hput
        simp only [hbuffer] at hinside
        have hmod := Nat.mod_lt (msgSize.toNat * maxMsgs.toNat) (by decide : 0 < 2 ^ 32)
        rw [Nat.mul_comm] at hinside
        omega
    · intro hfit items outs tmo hitems hitemSize houts houtSize
      rw [Nat.mod_eq_of_lt hfit] at hbuffer
      obtain ⟨msgq', s', hput, hR', hstored, hsize⟩ := putAll_of_inside hdoc hR (fun _ => rfl)
        hitemSize (by simp [hitems]) (by simp [hbuffer, Nat.mul_comm])
      have hget := getAll_of_stored hdoc tmo hR' (fun o ho => by rw [houtSize o ho, hsize])
        (by rw [hstored, houts, List.nil_append, hitems])
      rw [hstored, List.nil_append] at hget
      exact ⟨msgq', hput, hget⟩

end Poski.Zephyr
