import Poski.Osal.OsQueue
import Poski.Ring.Overwrite

/-!
# The POSIX Queue, Call by Call

`os_queue.cc` and the operations of `RingPthread.h`, each executed as a whole. A mutex that
nobody else holds does not show in the result, so what is left of the monitor is its ring;
a `get` that would have to wait for another task is `blocked`.
-/

namespace Poski.Posix

/-! ## RingPthread -/

namespace RingPthread

/-- `void put(void * itemIn)`. -/
def put (b : Build) (ring : OsRing) (itemIn : List UInt8) : Except Halt OsRing :=
  ring.pushBack b itemIn

/-- `bool get(void * itemOut, uint32_t tmo)`: the ring, the buffer `itemOut` and the
result. -/
def get (b : Build) (ring : OsRing) (itemOut : List UInt8) (tmo : UInt32) :
    Except Halt (OsRing × List UInt8 × Bool) :=
  if tmo ≠ 0 ∧ ring.size = 0 then
    .error .blocked
  else if ring.size ≠ 0 then
    match ring.front with
    | some item => do
      let itemOut ← memcpy itemOut 0 (ring.buffer.drop item) ring.itemSize.toNat
      let ring ← ring.popFront b
      return (ring, itemOut, true)
    | none => .ok (ring, itemOut, false)
  else
    .ok (ring, itemOut, false)

/-- `uint16_t size()`. -/
def size (ring : OsRing) : UInt16 := OsRing.size ring

variable {b : Build} {ring : OsRing} {out : List UInt8} {tmo : UInt32}

/-- A `get` that finds a message removes the oldest one and delivers it, whatever the
timeout; bytes of the buffer beyond the message size stay as they were. -/
theorem get_of_size_ne_zero (tmo : UInt32) (hsize : ring.size.toNat ≠ 0)
    (hfits : ring.offset ring.readIndex + ring.itemSize.toNat ≤ ring.buffer.length)
    (hout : ring.itemSize.toNat ≤ out.length) :
    get b ring out tmo =
      .ok (ring.popped, ring.slot ring.readIndex ++ out.drop ring.itemSize.toNat, true) := by
  have hne : ring.size ≠ 0 := OsRing.toNat_ne_zero_iff.mp hsize
  have hfront := OsRing.front_of_size_ne_zero hsize
  have hcopy := OsRing.memcpy_front hfits hout hfront
  have hpop := OsRing.popFront_of_size_ne_zero b hsize
  unfold get
  rw [if_neg (fun h => hne h.2), if_pos hne, hfront]
  simp only [hcopy, hpop, bind, Except.bind, pure, Except.pure]

/-- A `get` that returns `true` has delivered as many bytes as the ring's messages have. -/
theorem get_eq_ok_true {ring' : OsRing} {out' : List UInt8}
    (h : get b ring out tmo = .ok (ring', out', true)) :
    ring.size.toNat ≠ 0 ∧ ring' = ring.popped ∧
      (ring.slot ring.readIndex).length = ring.itemSize.toNat ∧
      out' = ring.slot ring.readIndex ++ out.drop ring.itemSize.toNat := by
  unfold get at h
  split at h
  · cases h
  split at h
  case isFalse => cases h
  case isTrue hne =>
    refine ⟨OsRing.toNat_ne_zero_iff.mpr hne, ?_⟩
    split at h
    case h_2 => cases h
    case h_1 item hfront =>
      obtain ⟨copied, hcopy, h⟩ := bind_eq_ok.mp h
      obtain ⟨r, hpop, h⟩ := bind_eq_ok.mp h
      cases h
      obtain ⟨hguard, rfl⟩ := memcpy_eq_ok.mp hcopy
      have hlen : (ring.slot ring.readIndex).length = ring.itemSize.toNat := by
        rw [← OsRing.take_front hfront]
        exact List.length_take_of_le hguard.1
      refine ⟨(OsRing.popFront_eq_ok.mp hpop).2, hlen, ?_⟩
      rw [OsRing.take_front hfront, Lib.splice, List.take_zero, List.nil_append, hlen,
        Nat.zero_add]

end RingPthread

/-! ## os_queue.cc -/

/-- `struct pos_queue`. -/
structure PosQueue where
  q : Option OsRing
  sigCb : Option ℕ
  sigArg : ℕ
  deriving DecidableEq, Repr

/-- `pos_queue_init`; the constructor's parameters are 16 bits wide. -/
def posQueueInit (b : Build) (heap : Allocator) (msgSize maxMsgs : UInt64) :
    Except Halt (PosQueue × PosError) := do
  let ring ← OsRing.construct b heap msgSize.toUInt16 maxMsgs.toUInt16
  let msgq : PosQueue := { q := some ring, sigCb := none, sigArg := 0 }
  return (msgq, if msgq.q.isSome then .ok else .enomem)

/-- `pos_queue_put`; a signal callback is assumed to return. -/
def posQueuePut (b : Build) (msgq : PosQueue) (data : List UInt8) :
    Except Halt (PosQueue × PosError × Option Signal) :=
  match msgq.q with
  | none => .error .nullDeref
  | some q => do
    let q ← RingPthread.put b q data
    return ({ msgq with q := some q }, .ok, msgq.sigCb.map fun cb => ⟨cb, msgq.sigArg⟩)

/-- `pos_queue_get`. -/
def posQueueGet (b : Build) (msgq : PosQueue) (data : List UInt8) (tmo : UInt32) :
    Except Halt (PosQueue × List UInt8 × PosError) :=
  match msgq.q with
  | none => .error .nullDeref
  | some q => do
    let (q, data, success) ← RingPthread.get b q data tmo
    return ({ msgq with q := some q }, data, if success then .ok else .timeout)

/-- `pos_queue_is_empty`. -/
def posQueueIsEmpty (msgq : PosQueue) : Except Halt Bool :=
  match msgq.q with
  | none => .error .nullDeref
  | some q => .ok (RingPthread.size q == 0)

/-- The messages a queue stores, the oldest first. -/
def PosQueue.contents (msgq : PosQueue) : List (List UInt8) :=
  match msgq.q with
  | none => []
  | some q => q.contents

end Poski.Posix
