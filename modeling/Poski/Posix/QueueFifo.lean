import Poski.Posix.Storage
import Poski.Ring.Refinement

/-!
# The POSIX Queue as a Bounded FIFO

The calls of `os_queue.cc` on a queue whose ring is as its constructor wants it: a put that
finds room appends, a get that finds a message delivers the oldest one, and a get that may
wait waits if there is none.

- `QueueHolds` : what such a queue stores
- `queueHolds_of_init` : a new queue is such a queue
-/

namespace Poski.Posix

open Spec

variable {cap msgSize : ℕ} {b : Build} {heap : Allocator} {msgq : PosQueue}
  {q : BoundedFifo (List UInt8) cap} {data out item : List UInt8} {rest : List (List UInt8)}

/-- The queue stores `q`, and its messages have `msgSize` bytes. -/
def QueueHolds (msgSize : ℕ) (msgq : PosQueue) (q : BoundedFifo (List UInt8) cap) : Prop :=
  ∃ r, msgq.q = some r ∧ r.itemSize.toNat = msgSize ∧ OsRing.Represents r q

theorem queueHolds_of_init {size maxMsgs : UInt64}
    (hcount : OsRing.countOk maxMsgs.toUInt16 = true) (hsize : size.toUInt16.toNat = msgSize)
    (hcap : maxMsgs.toUInt16.toNat = cap)
    (h : posQueueInit b heap size maxMsgs = .ok (msgq, .ok)) :
    QueueHolds msgSize msgq (.nil : BoundedFifo (List UInt8) cap) := by
  obtain ⟨r, hnew, h⟩ := bind_eq_ok.mp h
  cases h
  obtain ⟨hvalid, hempty⟩ := OsRing.construct_spec hcount hnew
  obtain ⟨-, hitem, hcnt, -⟩ := OsRing.construct_eq_ok hnew
  exact ⟨r, rfl, by rw [hitem, hsize], hvalid, by rw [hcnt, hcap], hempty⟩

theorem QueueHolds.put (h : QueueHolds msgSize msgq q) (hlen : data.length = msgSize)
    (hroom : q.items.length < cap) :
    ∃ msgq', posQueuePut b msgq data =
        .ok (msgq', .ok, msgq.sigCb.map fun cb => ⟨cb, msgq.sigArg⟩) ∧
      QueueHolds msgSize msgq' (q.push data hroom) := by
  obtain ⟨r, hq, rfl, hring⟩ := h
  have hfree : r.size.toNat < r.itemCount.toNat := by rwa [hring.size_eq, hring.count_eq]
  obtain ⟨hpush, hvalid, hcontents⟩ := hring.toValid.pushBack_spec (b := b) hlen.ge hfree
  refine ⟨_, (posQueuePut_eq_ok hq).mpr ⟨_, hpush, rfl, rfl, rfl⟩, r.pushed data, rfl, rfl,
    hvalid, hring.count_eq, ?_⟩
  rw [hcontents, hring.contents_eq, ← hlen, List.take_length, BoundedFifo.push_items]

theorem QueueHolds.get (h : QueueHolds msgSize msgq q) (hlen : out.length = msgSize)
    (hitems : q.items = item :: rest) (tmo : UInt32) :
    ∃ msgq', posQueueGet b msgq out tmo = .ok (msgq', item, .ok) ∧
      QueueHolds msgSize msgq' q.pop := by
  obtain ⟨r, hq, rfl, hring⟩ := h
  have hne : r.size.toNat ≠ 0 := by simp [hring.size_eq, hitems]
  obtain ⟨-, hvalid, hcontents⟩ := hring.toValid.popFront_spec (b := b) hne
  have hget := RingPthread.get_of_size_ne_zero (b := b) tmo hne
    (hring.toWellFormed.offset_add_le r.readIndex) hlen.ge
  rw [← hlen, List.drop_length, List.append_nil] at hget
  rw [hring.contents_eq, hitems, List.cons.injEq] at hcontents
  obtain ⟨rfl, hrest⟩ := hcontents
  refine ⟨_, (posQueueGet_eq_ok hq).mpr ⟨_, hget, rfl⟩, r.popped, rfl, rfl, hvalid,
    hring.count_eq, ?_⟩
  rw [BoundedFifo.pop_items, hitems, List.tail_cons, hrest]

/-- A get that may wait waits for a message. -/
theorem QueueHolds.get_waits (h : QueueHolds msgSize msgq q) (hitems : q.items = [])
    {tmo : UInt32} (htmo : tmo ≠ 0) : posQueueGet b msgq out tmo = .error .blocked := by
  obtain ⟨r, hq, -, hring⟩ := h
  have hzero : r.size = 0 := by
    rw [← UInt16.toNat_inj, hring.size_eq, hitems]
    rfl
  simp [posQueueGet, hq, RingPthread.get, htmo, hzero, bind, Except.bind]

end Poski.Posix
