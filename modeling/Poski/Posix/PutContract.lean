import Poski.Posix.MonitorInvariant
import Poski.Posix.Storage

/-!
# What pos_queue_put Promises, and When it Keeps it

A put either stores its message behind the others and returns `POS_OK`, or it returns an
error and leaves the queue alone. `pos_queue_put` has no check of its own: on a full queue
`push_back` aborts the process, or, with `NDEBUG`, overwrites the oldest message.

- `PutContract` : the contract
- `RingSound` : what every ring keeps under every use, in each of the two builds
- `put_keeps_contract_iff` : exactly when the contract is kept
-/

namespace Poski.Posix

open Lib TransitionSystem

universe u

/-! ## The contract -/

/-- The contract of a put of `item` into a queue that stores `before`, for a result that
carries the queue afterwards; `overwrites` tells that storing the message touches bytes of
a stored one. -/
def PutContract {α : Type} (contents : α → List (List UInt8)) (before : List (List UInt8))
    (overwrites : Prop) (item : List UInt8)
    (result : Except Halt (α × PosError × Option Signal)) : Prop :=
  ∃ after err signal, result = .ok (after, err, signal) ∧
    (err = .ok ∧ contents after = before ++ [item] ∧ ¬overwrites ∨
      err ≠ .ok ∧ contents after = before)

variable {b : Build} {msgq : PosQueue} {q : OsRing} {item : List UInt8}

/-- `pos_queue_put` keeps the contract when `push_back` does. -/
theorem putContract_posQueuePut (hq : msgq.q = some q) :
    PutContract PosQueue.contents q.contents q.Overwrites item (posQueuePut b msgq item) ↔
      ∃ r', q.pushBack b item = .ok r' ∧ r'.contents = q.contents ++ [item] ∧
        ¬q.Overwrites := by
  unfold PutContract
  cases hpush : q.pushBack b item with
  | error e => simp [posQueuePut, hq, RingPthread.put, hpush, bind, Except.bind]
  | ok r' =>
    simp [posQueuePut, hq, RingPthread.put, hpush, bind, Except.bind, pure, Except.pure,
      PosQueue.contents]

/-- `OsQueue::Push` adds one check, which keeps the contract by itself. -/
theorem putContract_push {o : OsQueue PosQueue} (hq : o.queue.q = some q) :
    PutContract (fun o => o.queue.contents) q.contents q.Overwrites item
        (o.push (posQueuePut b) item) ↔
      o.initialized = false ∨
        PutContract PosQueue.contents q.contents q.Overwrites item
          (posQueuePut b o.queue item) := by
  unfold PutContract
  cases hinit : o.initialized with
  | false => simp [OsQueue.push, hinit, PosQueue.contents, hq]
  | true =>
    cases hput : posQueuePut b o.queue item with
    | error e => simp [OsQueue.push, hinit, hput, bind, Except.bind]
    | ok res =>
      obtain ⟨after, err, signal⟩ := res
      simp [OsQueue.push, hinit, hput, bind, Except.bind, pure, Except.pure]

/-- `OsQueue()` asserts `POS_OK`, and `pos_queue_init` of this port returns nothing else: the
check of `Push` always passes, and the ring alone decides. -/
theorem putContract_push_construct {heap : Allocator} {sizeofT queueSize : UInt64}
    {o : OsQueue PosQueue}
    (h : OsQueue.construct b (posQueueInit b heap) sizeofT queueSize = .ok o) :
    ∃ r, o.queue.q = some r ∧ r.contents = [] ∧ ∀ item, item.length = r.itemSize.toNat →
      (PutContract (fun o => o.queue.contents) r.contents r.Overwrites item
        (o.push (posQueuePut b) item) ↔ r.HasRoom b) := by
  obtain ⟨⟨queue, initStatus⟩, hinit, h⟩ := bind_eq_ok.mp h
  obtain ⟨-, -, h⟩ := bind_eq_ok.mp h
  cases h
  obtain rfl := posQueueInit_status hinit
  obtain ⟨r, hq, halloc, -, hempty, -⟩ := posQueueInit_eq_ok hinit
  refine ⟨r, hq, hempty, fun item hitem => ?_⟩
  rw [putContract_push hq, putContract_posQueuePut hq, halloc.pushBack_appends_iff hitem]
  simp

/-! ## Rings under every use -/

/-- The buffer keeps its length in every build; with assertions the ring stays valid. -/
structure RingSound (b : Build) (r : OsRing) : Prop where
  allocated : r.Allocated
  valid : b.ndebug = false → r.Valid

theorem RingSound.construct {heap : Allocator} {itemSize itemCount : UInt16} {r : OsRing}
    (h : OsRing.construct b heap itemSize itemCount = .ok r) : RingSound b r := by
  obtain ⟨hpass, hsize, hcount, -, -, hlen⟩ := OsRing.construct_eq_ok h
  refine ⟨?_, fun hb => ?_⟩
  · unfold OsRing.Allocated
    rw [hlen, hsize, hcount]
  · rw [hb] at hpass
    exact (OsRing.construct_spec (hpass.resolve_left Bool.false_ne_true) h).1

theorem RingSound.pushBack {r r' : OsRing} (hr : RingSound b r)
    (h : r.pushBack b item = .ok r') : RingSound b r' := by
  obtain ⟨hpass, ⟨hitem, hfits⟩, rfl⟩ := OsRing.pushBack_eq_ok.mp h
  refine ⟨hr.allocated.pushed hitem hfits, fun hb => ?_⟩
  have hvalid := hr.valid hb
  rw [hb] at hpass
  -- the assertion of `push_back` has passed
  have hroom := room_of_not_full hvalid (hpass.resolve_left Bool.false_ne_true)
  exact (hvalid.pushBack_spec (b := b) hitem hroom).2.1

theorem RingSound.popFront {r r' : OsRing} (hr : RingSound b r)
    (h : r.popFront b = .ok r') : RingSound b r' := by
  obtain ⟨hpass, rfl⟩ := OsRing.popFront_eq_ok.mp h
  refine ⟨hr.allocated, fun hb => ?_⟩
  rw [hb] at hpass
  have hsome := (OsRing.empty_eq_false_iff r).mp (hpass.resolve_left Bool.false_ne_true)
  exact ((hr.valid hb).popFront_spec (b := b) hsome).2.1

variable {ι : Type u} [DecidableEq ι] {s : Monitor ι} {itemSize itemCount : UInt16}

/-- Every ring that any interleaving of any use of the queue leads to. -/
theorem ringSound_of_reachable (hreach : (ringPthread ι b itemSize itemCount).Reachable s) :
    RingSound b s.ring ∧ s.ring.itemCount = itemCount := by
  refine hreach.invariant (I := fun s => RingSound b s.ring ∧ s.ring.itemCount = itemCount) ?_ ?_
  · rintro s ⟨⟨heap, hnew⟩, -⟩
    obtain ⟨-, -, hcount, -⟩ := OsRing.construct_eq_ok hnew
    exact ⟨.construct hnew, hcount⟩
  · rintro s a s' ⟨hsound, hcount⟩ - ⟨-, h⟩
    -- of all statements only `push_back` and `pop_front` touch the ring
    rcases h.ring_cases with hsame | ⟨t, item, -, -, hpush⟩ | ⟨t, out, -, -, hpop⟩
    · rw [hsame]
      exact ⟨hsound, hcount⟩
    · obtain ⟨-, -, heq⟩ := OsRing.pushBack_eq_ok.mp hpush
      exact ⟨hsound.pushBack hpush, by rw [heq, OsRing.pushed_itemCount, hcount]⟩
    · obtain ⟨-, heq⟩ := OsRing.popFront_eq_ok.mp hpop
      exact ⟨hsound.popFront hpop, by rw [heq, OsRing.popped_itemCount, hcount]⟩

/-! ## A full queue -/

/-- A ring of one message of one byte, and in it the message `[7]`. -/
def fullRing : OsRing where
  buffer := [7]
  itemSize := 1
  itemCount := 1
  readIndex := 0
  writeIndex := 1

theorem fullRing_reachable (b : Build) :
    ∃ s : Monitor Bool, (ringPthread Bool b 1 1).Reachable s ∧ s.mutex = .free ∧
      s.ring = fullRing := by
  have hassert : b.assert true = .ok () := Build.assert_true b
  have hnew : OsRing.construct b .zeroed 1 1 = .ok ⟨[0], 1, 1, 0, 0⟩ := by
    unfold OsRing.construct
    rw [show OsRing.countOk 1 = true from rfl, hassert]
    rfl
  -- one task makes one put, from its call to its return
  have h0 : (ringPthread Bool b 1 1).Run (fun _ _ => True) [] _ :=
    .start (init_start b .zeroed 1 1 hnew)
  have h1 := h0.next (.callPut true [7]) trivial ⟨rfl, .callPut rfl rfl⟩
  have h2 := h1.next (.lock true) trivial ⟨rfl, .lockPut rfl rfl⟩
  have h3 := h2.next (.push true [7]) trivial
    ⟨rfl, .push rfl (OsRing.pushBack_eq_ok.mpr ⟨.inr rfl, by decide, rfl⟩)⟩
  have h4 := h3.next (.signal true ∅) trivial ⟨rfl, .signal rfl (by decide) (fun _ => rfl)⟩
  have h5 := h4.next (.unlock true) trivial ⟨rfl, .unlockPut rfl rfl⟩
  have h6 := h5.next (.returnPut true .ok) trivial ⟨rfl, .returnPut rfl⟩
  exact ⟨_, ⟨_, h6⟩, rfl, rfl⟩

/-- In both builds a put into the full queue breaks the contract. -/
theorem put_breaks_contract :
    (¬∀ s : Monitor Bool, (ringPthread Bool ⟨false⟩ 1 1).Reachable s → ∀ item, item.length = 1 →
        PutContract PosQueue.contents s.ring.contents s.ring.Overwrites item
          (posQueuePut ⟨false⟩ ⟨some s.ring, none, 0⟩ item)) ∧
      ¬∀ s : Monitor Bool, (ringPthread Bool ⟨true⟩ 1 1).Reachable s → ∀ item, item.length = 1 →
        PutContract PosQueue.contents s.ring.contents s.ring.Overwrites item
          (posQueuePut ⟨true⟩ ⟨some s.ring, none, 0⟩ item) := by
  have hbreaks : ∀ b : Build, ¬fullRing.HasRoom b → ¬∀ s : Monitor Bool,
      (ringPthread Bool b 1 1).Reachable s → ∀ item, item.length = 1 →
        PutContract PosQueue.contents s.ring.contents s.ring.Overwrites item
          (posQueuePut b ⟨some s.ring, none, 0⟩ item) := by
    intro b hfull halways
    obtain ⟨s, hreach, -, hring⟩ := fullRing_reachable b
    have hput := halways s hreach [8] rfl
    -- with assertions the put aborts, and without them it overwrites the `7`
    have hallocated : fullRing.Allocated := rfl
    rw [hring, putContract_posQueuePut rfl, hallocated.pushBack_appends_iff rfl] at hput
    exact hfull hput
  exact ⟨hbreaks ⟨false⟩ (by decide), hbreaks ⟨true⟩ (by decide)⟩

/-! ## Exactly when the contract is kept -/

/-- **When a put keeps its contract**, in every reachable state, for every message and in
either build: exactly when the ring has room. For a queue of an admissible capacity that is
when fewer messages than the capacity are stored, messages of no bytes under `NDEBUG`
apart. Of the state only the ring counts: a put is one call here, by a task that has got
the mutex, and `s.mutex` plays no part in it. -/
theorem put_keeps_contract_iff (hreach : (ringPthread ι b itemSize itemCount).Reachable s)
    (hq : msgq.q = some s.ring) (hitem : item.length = s.ring.itemSize.toNat) :
    (PutContract PosQueue.contents s.ring.contents s.ring.Overwrites item
        (posQueuePut b msgq item) ↔ s.ring.HasRoom b) ∧
      (∀ initialized initStatus,
        PutContract (fun o => o.queue.contents) s.ring.contents s.ring.Overwrites item
            (OsQueue.push (posQueuePut b) ⟨msgq, initialized, initStatus⟩ item) ↔
          initialized = false ∨ s.ring.HasRoom b) ∧
      (OsRing.countOk itemCount = true →
        (s.ring.HasRoom b ↔ s.ring.size.toNat < itemCount.toNat ∨
          (b.ndebug = true ∧ s.ring.itemSize = 0 ∧ s.ring.size.toNat < 65535))) := by
  obtain ⟨hsound, hcount⟩ := ringSound_of_reachable hreach
  have hput : PutContract PosQueue.contents s.ring.contents s.ring.Overwrites item
      (posQueuePut b msgq item) ↔ s.ring.HasRoom b := by
    rw [putContract_posQueuePut hq]
    exact hsound.allocated.pushBack_appends_iff hitem
  refine ⟨hput, fun initialized initStatus => ?_, fun hok => ?_⟩
  · rw [← hput]
    exact putContract_push (o := ⟨msgq, initialized, initStatus⟩) hq
  · rw [← hcount] at hok ⊢
    exact OsRing.hasRoom_iff hok fun hb => (hsound.valid hb).size_le

/-- The full queue again, through the general result. -/
theorem put_keeps_contract_iff_full :
    ∃ s : Monitor Bool, s.ring = fullRing ∧
      (PutContract PosQueue.contents s.ring.contents s.ring.Overwrites [8]
          (posQueuePut ⟨false⟩ ⟨some s.ring, none, 0⟩ [8]) ↔ s.ring.HasRoom ⟨false⟩) := by
  obtain ⟨s, hreach, -, hring⟩ := fullRing_reachable ⟨false⟩
  exact ⟨s, hring, (put_keeps_contract_iff hreach rfl (by rw [hring]; rfl)).1⟩

end Poski.Posix
