import Poski.FreeRtos.Queue
import Poski.Ports.QueueStorage
import Poski.Posix.QueueFifo
import Poski.RtThread.Queue
import Poski.Spec.MessageQueue
import Poski.Zephyr.Queue

/-!
# Message Queues on Four Ports

A program makes a queue of `maxMsgs` messages of `msgSize` bytes and then puts messages, or
gets them without waiting. Each port is compared with what `os_queue.h` says. To a call that
cannot be served each port does something else: POSIX returns `POS_TIMEOUT`, or asserts, or
overwrites; Zephyr and RT-Thread return `POS_ERROR`; FreeRTOS returns `POS_OK`, or asserts, or
waits. No port returns `POS_EBUSY`, which the header announces.

- `posix_answers_iff`, `zephyr_answers_iff`, `freeRtos_answers_iff`, `rtThread_answers_iff`
- `queue_answers_iff` : on every port the replies are those of the header exactly as long as
  all calls can be served
-/

namespace Poski.Ports

open Lib Spec
open Zephyr (KMsgq KState)

/-! ## The ports -/

def posixQueue (b : Build) (msgq : Posix.PosQueue) :
    MsgCall → Except Halt (Posix.PosQueue × MsgReply)
  | .put data => do
    let (msgq, err, _) ← Posix.posQueuePut b msgq data
    return (msgq, err, data)
  | .get out => do
    let (msgq, out, err) ← Posix.posQueueGet b msgq out 0
    return (msgq, err, out)

def zephyrQueue {K : Type} (kernel : Zephyr.KMsgq K) (msgq : Zephyr.PosQueue K) :
    MsgCall → Except Halt (Zephyr.PosQueue K × MsgReply)
  | .put data => do
    let (msgq, err, _) ← Zephyr.posQueuePut kernel msgq data
    return (msgq, err, data)
  | .get out => do
    let (msgq, out, err) ← Zephyr.posQueueGet kernel msgq out 0
    return (msgq, err, out)

/-- In a task or in an ISR; the native calls need a handle. -/
def freeRtosQueue {Q : Type} (kernel : FreeRtos.QueueKernel Q) (b : Build) (inIsr : Bool) :
    Option Q → MsgCall → Except Halt (Option Q × MsgReply)
  | none, _ => .error .nullDeref
  | some queue, .put data => do
    let (queue, err) ← FreeRtos.posQueuePut kernel b inIsr queue data
    return (some queue, err, data)
  | some queue, .get out => do
    let (queue, out, err) ← FreeRtos.posQueueGet kernel b inIsr queue out 0
    return (some queue, err, out)

def rtThreadQueue {M : Type} (kernel : RtThread.Queue.MsgQueueKernel M) (b : Build)
    (queue : Option (RtThread.Queue.PosQueue M)) :
    MsgCall → Except Halt (Option (RtThread.Queue.PosQueue M) × MsgReply)
  | .put data => do
    let (queue, err) ← RtThread.Queue.posQueuePut kernel b queue data
    return (queue, err, data)
  | .get out => do
    let (queue, out, err) ← RtThread.Queue.posQueueGet kernel b queue out 0
    return (queue, err, out)

/-! ## Nobody returns POS_EBUSY -/

theorem posixQueue_ne_ebusy {b : Build} (msgq : Posix.PosQueue) (c : MsgCall)
    (msgq' : Posix.PosQueue) (reply : MsgReply) (h : posixQueue b msgq c = .ok (msgq', reply)) :
    reply.1 ≠ .ebusy := by
  cases c with
  | put data =>
    obtain ⟨⟨q, err, signal⟩, hput, h⟩ := bind_eq_ok.mp h
    cases h
    cases hq : msgq.q with
    | none => simp [Posix.posQueuePut, hq] at hput
    | some r =>
      obtain ⟨_, _, _, rfl, _⟩ := (Posix.posQueuePut_eq_ok hq).mp hput
      simp
  | get out =>
    obtain ⟨⟨q, out', err⟩, hget, h⟩ := bind_eq_ok.mp h
    cases h
    cases hq : msgq.q with
    | none => simp [Posix.posQueueGet, hq] at hget
    | some r =>
      -- `RingPthread::get` tells a message from none, and the port says `POS_TIMEOUT` for none
      simp only [Posix.posQueueGet, hq] at hget
      obtain ⟨⟨q, data, success⟩, _, hreturn⟩ := bind_eq_ok.mp hget
      cases hreturn
      cases success <;> simp

/-- `k_msgq_put` with `K_NO_WAIT` stores the message or returns `-ENOMSG`. -/
def PutsWithoutWaiting {K : Type} (kernel : Zephyr.KMsgq K) : Prop :=
  ∀ k data k' err, kernel.put k data = .ok (k', err) → err = 0 ∨ err = -ENOMSG

/-- The code that the port translates to `POS_EBUSY` is not one of these. -/
theorem zephyrQueue_ne_ebusy {K : Type} {kernel : Zephyr.KMsgq K}
    (hput : PutsWithoutWaiting kernel) (msgq : Zephyr.PosQueue K) (c : MsgCall)
    (msgq' : Zephyr.PosQueue K) (reply : MsgReply)
    (h : zephyrQueue kernel msgq c = .ok (msgq', reply)) : reply.1 ≠ .ebusy := by
  cases c with
  | put data =>
    obtain ⟨⟨q, err, signal⟩, hcall, h⟩ := bind_eq_ok.mp h
    cases h
    obtain ⟨⟨k, code⟩, hkernel, hreturn⟩ := bind_eq_ok.mp hcall
    have hcode : code ≠ -Zephyr.EAGAIN := by
      rcases hput _ _ _ _ hkernel with rfl | rfl <;> decide
    by_cases hzero : code = 0
    · simp only [hzero, if_true] at hreturn
      cases hreturn
      simp
    · simp only [hzero, hcode, if_false] at hreturn
      cases hreturn
      simp
  | get out =>
    obtain ⟨⟨q, out', err⟩, hcall, h⟩ := bind_eq_ok.mp h
    cases h
    obtain ⟨⟨k, data, code⟩, _, hreturn⟩ := bind_eq_ok.mp hcall
    -- `POS_TIMEOUT` or `POS_ERROR`, whatever the kernel returns
    simp only at hreturn
    repeat' split at hreturn
    all_goals
      cases hreturn
      simp

theorem freeRtosQueue_ne_ebusy {Q : Type} {kernel : FreeRtos.QueueKernel Q} {b : Build}
    {inIsr : Bool} {stored : Q → List (List UInt8)} {capacity : ℕ}
    (hdoc : kernel.Documented stored capacity) (queue : Option Q) (c : MsgCall)
    (queue' : Option Q) (reply : MsgReply)
    (h : freeRtosQueue kernel b inIsr queue c = .ok (queue', reply)) : reply.1 ≠ .ebusy := by
  cases queue with
  | none => cases h
  | some queue =>
    cases c with
    | put data =>
      obtain ⟨⟨q, err⟩, hput, h⟩ := bind_eq_ok.mp h
      cases h
      rw [(FreeRtos.posQueuePut_cases hdoc hput).1]
      simp
    | get out =>
      obtain ⟨⟨q, out', err⟩, hget, h⟩ := bind_eq_ok.mp h
      cases h
      rw [(FreeRtos.posQueueGet_cases hdoc hget).1]
      simp

theorem rtThreadQueue_ne_ebusy {M : Type} {kernel : RtThread.Queue.MsgQueueKernel M} {b : Build}
    (queue : Option (RtThread.Queue.PosQueue M)) (c : MsgCall)
    (queue' : Option (RtThread.Queue.PosQueue M)) (reply : MsgReply)
    (h : rtThreadQueue kernel b queue c = .ok (queue', reply)) : reply.1 ≠ .ebusy := by
  cases c with
  | put data =>
    obtain ⟨⟨q, err⟩, hput, h⟩ := bind_eq_ok.mp h
    cases h
    exact RtThread.Queue.posQueuePut_ne_ebusy hput
  | get out =>
    obtain ⟨⟨q, out', err⟩, hget, h⟩ := bind_eq_ok.mp h
    cases h
    exact RtThread.Queue.posQueueGet_ne_ebusy hget

/-! ## Calls that can be served -/

variable {cap msgSize : ℕ} {q : BoundedFifo (List UInt8) cap} {calls : List MsgCall}

theorem posixQueue_served {b : Build} (msgq : Posix.PosQueue) (q : BoundedFifo (List UInt8) cap)
    (c : MsgCall) (hR : Posix.QueueHolds msgSize msgq q) (hsize : OfSize msgSize c)
    (hserved : Served q c) :
    ∃ msgq', posixQueue b msgq c = .ok (msgq', (messageQueue q c).2) ∧
      Posix.QueueHolds msgSize msgq' (messageQueue q c).1 := by
  cases c with
  | put data =>
    have hroom : q.items.length < cap := hserved
    obtain ⟨msgq', hput, hR'⟩ := hR.put (b := b) hsize hroom
    rw [messageQueue_put hroom]
    refine ⟨msgq', ?_, hR'⟩
    simp [posixQueue, hput, bind, Except.bind, pure, Except.pure]
  | get out =>
    obtain ⟨item, rest, hitems⟩ := List.exists_cons_of_ne_nil hserved
    obtain ⟨msgq', hget, hR'⟩ := hR.get (b := b) hsize hitems 0
    rw [messageQueue_get hitems]
    refine ⟨msgq', ?_, hR'⟩
    simp [posixQueue, hget, bind, Except.bind, pure, Except.pure]

/-- The kernel's queue stores what is stored, and its slots lie inside the buffer. -/
def ZephyrHolds {K : Type} (R : K → KState → Prop) (msgSize : ℕ) (msgq : Zephyr.PosQueue K)
    (q : BoundedFifo (List UInt8) cap) : Prop :=
  ∃ s, R msgq.msgq s ∧ s.stored = q.items ∧ s.msgSize = msgSize ∧ s.maxMsgs = cap ∧
    cap * msgSize ≤ s.bufferLen ∧ s.next < cap

theorem zephyrQueue_served {K : Type} {kernel : KMsgq K} {R : K → KState → Prop}
    (hdoc : kernel.Documented R) (msgq : Zephyr.PosQueue K) (q : BoundedFifo (List UInt8) cap)
    (c : MsgCall) (hR : ZephyrHolds R msgSize msgq q) (hsize : OfSize msgSize c)
    (hserved : Served q c) :
    ∃ msgq', zephyrQueue kernel msgq c = .ok (msgq', (messageQueue q c).2) ∧
      ZephyrHolds R msgSize msgq' (messageQueue q c).1 := by
  obtain ⟨s, hs, hstored, rfl, rfl, hfits, hnext⟩ := hR
  cases c with
  | put data =>
    have hroom : q.items.length < s.maxMsgs := hserved
    -- the slot that the kernel writes next lies inside the buffer
    have hslot : (s.next + 1) * s.msgSize ≤ s.bufferLen :=
      (Nat.mul_le_mul_right _ hnext).trans hfits
    obtain ⟨k, hput, hk⟩ := hdoc.put_inside _ s data hs (hstored ▸ hroom) hsize hslot
    rw [messageQueue_put hroom]
    refine ⟨{ msgq with msgq := k }, ?_, s.push data, hk, ?_, rfl, rfl, hfits, ?_⟩
    · simp [zephyrQueue, Zephyr.posQueuePut_of_put hput, bind, Except.bind, pure, Except.pure]
    · simp [KState.push, hstored]
    · exact Nat.mod_lt _ (Nat.zero_lt_of_lt hnext)
  | get out =>
    obtain ⟨item, rest, hitems⟩ := List.exists_cons_of_ne_nil hserved
    obtain ⟨k, hget, hk⟩ := Zephyr.posQueueGet_of_get 0 fun tmo =>
      hdoc.get_stored _ s out tmo item rest hs (hstored.trans hitems) hsize
    rw [messageQueue_get hitems]
    refine ⟨{ msgq with msgq := k }, ?_, _, hk, ?_, rfl, rfl, hfits, hnext⟩
    · simp [zephyrQueue, hget, bind, Except.bind, pure, Except.pure]
    · rw [BoundedFifo.pop_items, hitems, List.tail_cons]

/-- There is a native queue, which stores what is stored. -/
def FreeRtosHolds {Q : Type} (stored : Q → List (List UInt8)) (queue : Option Q)
    (q : BoundedFifo (List UInt8) cap) : Prop :=
  ∃ handle, queue = some handle ∧ stored handle = q.items

theorem freeRtosQueue_served {Q : Type} {kernel : FreeRtos.QueueKernel Q} {b : Build}
    {inIsr : Bool} {stored : Q → List (List UInt8)} (hdoc : kernel.Documented stored cap)
    (hserves : kernel.Serves stored cap) (queue : Option Q) (q : BoundedFifo (List UInt8) cap)
    (c : MsgCall) (hR : FreeRtosHolds stored queue q) (hserved : Served q c) :
    ∃ queue', freeRtosQueue kernel b inIsr queue c = .ok (queue', (messageQueue q c).2) ∧
      FreeRtosHolds stored queue' (messageQueue q c).1 := by
  obtain ⟨handle, rfl, hstored⟩ := hR
  cases c with
  | put data =>
    have hroom : q.items.length < cap := hserved
    obtain ⟨handle', hput, hstored'⟩ :=
      FreeRtos.posQueuePut_of_room (b := b) hdoc hserves (hstored ▸ hroom) inIsr data
    rw [messageQueue_put hroom]
    refine ⟨some handle', ?_, handle', rfl, ?_⟩
    · simp [freeRtosQueue, hput, bind, Except.bind, pure, Except.pure]
    · rw [hstored', hstored, BoundedFifo.push_items]
  | get out =>
    obtain ⟨item, rest, hitems⟩ := List.exists_cons_of_ne_nil hserved
    obtain ⟨handle', hget, hstored'⟩ :=
      FreeRtos.posQueueGet_of_stored (b := b) hdoc hserves (hstored.trans hitems) inIsr out
    rw [messageQueue_get hitems]
    refine ⟨some handle', ?_, handle', rfl, ?_⟩
    · simp [freeRtosQueue, hget, bind, Except.bind, pure, Except.pure]
    · rw [hstored', BoundedFifo.pop_items, hitems, List.tail_cons]

section RtThread

variable {M : Type} {kernel : RtThread.Queue.MsgQueueKernel M} {stored : M → List (List UInt8)}
  {capacity : M → ℕ}

/-- There is a native queue, with the sizes asked for, which stores what is stored. -/
def RtThreadHolds (kernel : RtThread.Queue.MsgQueueKernel M) (stored : M → List (List UInt8))
    (capacity : M → ℕ) (msgSize : ℕ) (queue : Option (RtThread.Queue.PosQueue M))
    (q : BoundedFifo (List UInt8) cap) : Prop :=
  ∃ mq, queue = some { handle := some mq } ∧ stored mq = q.items ∧ capacity mq = cap ∧
    kernel.msgSize mq = msgSize

theorem rtThreadQueue_served {b : Build} (hdoc : kernel.Documented stored capacity)
    (queue : Option (RtThread.Queue.PosQueue M)) (q : BoundedFifo (List UInt8) cap) (c : MsgCall)
    (hR : RtThreadHolds kernel stored capacity msgSize queue q) (hsize : OfSize msgSize c)
    (hserved : Served q c) :
    ∃ queue', rtThreadQueue kernel b queue c = .ok (queue', (messageQueue q c).2) ∧
      RtThreadHolds kernel stored capacity msgSize queue' (messageQueue q c).1 := by
  obtain ⟨mq, rfl, hstored, hcap, rfl⟩ := hR
  cases c with
  | put data =>
    have hroom : q.items.length < cap := hserved
    have hfree : (stored mq).length < capacity mq := by rwa [hstored, hcap]
    obtain ⟨mq', hsend, hstored', hcap', hsize'⟩ := hdoc.send mq data hsize hfree
    rw [messageQueue_put hroom]
    refine ⟨_, ?_, mq', rfl, ?_, hcap'.trans hcap, hsize'⟩
    · simp [rtThreadQueue, RtThread.Queue.posQueuePut_of_send hsend, bind, Except.bind, pure,
        Except.pure]
    · rw [hstored', hstored, BoundedFifo.push_items]
  | get out =>
    obtain ⟨item, rest, hitems⟩ := List.exists_cons_of_ne_nil hserved
    obtain ⟨mq', hrecv, hstored', hcap', hsize'⟩ :=
      hdoc.recv mq out (0 : UInt32).toInt32.toInt item rest hsize (hstored.trans hitems)
    rw [messageQueue_get hitems]
    refine ⟨_, ?_, mq', rfl, ?_, hcap'.trans hcap, hsize'⟩
    · simp [rtThreadQueue, RtThread.Queue.posQueueGet_of_recv hrecv, bind, Except.bind, pure,
        Except.pure]
    · rw [hstored', BoundedFifo.pop_items, hitems, List.tail_cons]

end RtThread

/-! ## Programs -/

/-- A program makes a queue and calls it; what it gets, the code of `pos_queue_init` first. -/
def posixQueueRun (b : Build) (heap : Allocator) (msgSize maxMsgs : UInt16)
    (calls : List MsgCall) : Except Halt (List MsgReply) := do
  let (msgq, err) ← Posix.posQueueInit b heap msgSize.toUInt64 maxMsgs.toUInt64
  return (err, []) :: (← replies (posixQueue b) msgq calls)

def zephyrQueueRun {K : Type} (kernel : KMsgq K) (heap : Allocator) (msgq : Zephyr.PosQueue K)
    (msgSize maxMsgs : UInt16) (calls : List MsgCall) : Except Halt (List MsgReply) := do
  let (msgq, err) := Zephyr.posQueueInit kernel heap msgq msgSize.toUInt32 maxMsgs.toUInt32
  return (err, []) :: (← replies (zephyrQueue kernel) msgq calls)

def freeRtosQueueRun {Q : Type} (kernel : FreeRtos.QueueKernel Q)
    (xQueueCreate : ℕ → ℕ → Option Q) (b : Build) (inIsr : Bool) (msgSize maxMsgs : UInt16)
    (calls : List MsgCall) : Except Halt (List MsgReply) := do
  let (queue, err) := FreeRtos.posQueueInit xQueueCreate msgSize.toNat maxMsgs.toNat
  return (err, []) :: (← replies (freeRtosQueue kernel b inIsr) queue calls)

def rtThreadQueueRun {M : Type} (kernel : RtThread.Queue.MsgQueueKernel M) (b : Build)
    (queue : RtThread.Queue.PosQueue M) (msgSize maxMsgs : UInt16) (calls : List MsgCall) :
    Except Halt (List MsgReply) := do
  let (queue, err) ← RtThread.Queue.posQueueInit kernel b (some queue) msgSize.toNat maxMsgs.toNat
  return (err, []) :: (← replies (rtThreadQueue kernel b) queue calls)

/-- What the header tells the program to expect. -/
def queueRun (maxMsgs : UInt16) (calls : List MsgCall) : List MsgReply :=
  (.ok, []) :: specReplies messageQueue (.nil : BoundedFifo (List UInt8) maxMsgs.toNat) calls

/-- All calls of the program can be served. -/
def AllServed (maxMsgs : UInt16) (calls : List MsgCall) : Prop :=
  AlwaysCalls messageQueue Served (.nil : BoundedFifo (List UInt8) maxMsgs.toNat) calls

section Programs

variable {b : Build} {heap : Allocator} {msgSize maxMsgs : UInt16}

/-- A power of two below `2 ^ 16` leaves room for the product in an `int`. -/
theorem bytes_le_INT_MAX (hcount : OsRing.countOk maxMsgs = true) :
    msgSize.toNat * maxMsgs.toNat ≤ INT_MAX := by
  have hle := OsRing.countOk_le hcount
  have hlt := msgSize.toNat_lt
  calc msgSize.toNat * maxMsgs.toNat ≤ 65535 * 32768 := Nat.mul_le_mul (by omega) hle
    _ ≤ INT_MAX := by decide

/-- No code that the program gets is `POS_EBUSY`. -/
def NeverBusy (run : Except Halt (List MsgReply)) : Prop :=
  ∀ got, run = .ok got → ∀ reply ∈ got, reply.1 ≠ .ebusy

theorem neverBusy_of_calls {σ : Type} {port : σ → MsgCall → Except Halt (σ × MsgReply)}
    (hport : ∀ s c s' reply, port s c = .ok (s', reply) → reply.1 ≠ .ebusy) (s : σ)
    (calls : List MsgCall) : NeverBusy (do return (.ok, []) :: (← replies port s calls)) := by
  intro got hgot
  obtain ⟨rs, hreplies, hreturn⟩ := bind_eq_ok.mp hgot
  cases hreturn
  intro reply hmem
  rcases List.mem_cons.mp hmem with rfl | hrest
  · exact PosError.noConfusion
  · exact replies_forall hport hreplies reply hrest

/-- The queue that the POSIX program makes. -/
theorem posixQueueRun_eq (b : Build) (calls : List MsgCall)
    (hcount : OsRing.countOk maxMsgs = true)
    {bytes : List UInt8} (hheap : heap.request (msgSize.toNat * maxMsgs.toNat) = some bytes) :
    ∃ msgq, posixQueueRun b heap msgSize maxMsgs calls =
        (do return (.ok, []) :: (← replies (posixQueue b) msgq calls)) ∧
      Posix.QueueHolds msgSize.toNat msgq (.nil : BoundedFifo (List UInt8) maxMsgs.toNat) := by
  have hnew : OsRing.construct b heap msgSize maxMsgs = .ok
      { buffer := bytes, itemSize := msgSize, itemCount := maxMsgs, readIndex := 0
        writeIndex := 0 } := by
    simp [OsRing.construct, hcount, intMul, bytes_le_INT_MAX hcount, Allocator.operatorNew, hheap,
      bind, Except.bind, pure, Except.pure]
  have hinit : Posix.posQueueInit b heap msgSize.toUInt64 maxMsgs.toUInt64 = .ok
      ({ q := some { buffer := bytes, itemSize := msgSize, itemCount := maxMsgs, readIndex := 0
                     writeIndex := 0 }, sigCb := none, sigArg := 0 }, .ok) := by
    simp [Posix.posQueueInit, hnew, bind, Except.bind, pure, Except.pure]
  refine ⟨_, ?_, Posix.queueHolds_of_init (by simpa using hcount)
    (congrArg UInt16.toNat (UInt16.toUInt16_toUInt64 msgSize))
    (congrArg UInt16.toNat (UInt16.toUInt16_toUInt64 maxMsgs)) hinit⟩
  rw [posixQueueRun, hinit]
  rfl

theorem posix_answers_iff (hcount : OsRing.countOk maxMsgs = true)
    {bytes : List UInt8} (hheap : heap.request (msgSize.toNat * maxMsgs.toNat) = some bytes)
    (hsize : ∀ c ∈ calls, OfSize msgSize.toNat c) :
    (posixQueueRun b heap msgSize maxMsgs calls = .ok (queueRun maxMsgs calls) ↔
      AllServed maxMsgs calls) ∧
    NeverBusy (posixQueueRun b heap msgSize maxMsgs calls) := by
  obtain ⟨msgq, hrun, hholds⟩ := posixQueueRun_eq b calls hcount hheap
  rw [hrun]
  refine ⟨?_, neverBusy_of_calls posixQueue_ne_ebusy msgq calls⟩
  rw [AllServed, ← answers_iff _ (posixQueue_served (b := b)) posixQueue_ne_ebusy hholds hsize]
  exact cons_reply_eq_ok

theorem zephyrQueueRun_eq {K : Type} {kernel : KMsgq K} {R : K → KState → Prop}
    (calls : List MsgCall) (hdoc : kernel.Documented R) (hcount : OsRing.countOk maxMsgs = true)
    {bytes : List UInt8} (hheap : heap.request (msgSize.toNat * maxMsgs.toNat) = some bytes)
    (msgq : Zephyr.PosQueue K) :
    ∃ msgq', zephyrQueueRun kernel heap msgq msgSize maxMsgs calls =
        (do return (.ok, []) :: (← replies (zephyrQueue kernel) msgq' calls)) ∧
      ZephyrHolds R msgSize.toNat msgq' (.nil : BoundedFifo (List UInt8) maxMsgs.toNat) := by
  have hle : msgSize.toNat * maxMsgs.toNat ≤ INT_MAX := bytes_le_INT_MAX hcount
  have hproduct : (msgSize.toUInt32 * maxMsgs.toUInt32).toNat =
      msgSize.toNat * maxMsgs.toNat := by
    rw [UInt32.toNat_mul, UInt16.toNat_toUInt32, UInt16.toNat_toUInt32]
    unfold INT_MAX at hle
    omega
  -- the 32-bit product is the size that the heap is asked for
  have hlen := heap.length_of_request _ _ hheap
  have hinit : Zephyr.posQueueInit kernel heap msgq msgSize.toUInt32 maxMsgs.toUInt32 =
      ({ msgq := kernel.init bytes msgSize.toUInt32 maxMsgs.toUInt32, buffer := some bytes.length
         sigCb := none, sigArg := 0 }, .ok) := by
    simp only [Zephyr.posQueueInit, hproduct, hheap]
  have hholds : ZephyrHolds R msgSize.toNat
      { msgq := kernel.init bytes msgSize.toUInt32 maxMsgs.toUInt32, buffer := some bytes.length
        sigCb := none, sigArg := 0 } (.nil : BoundedFifo (List UInt8) maxMsgs.toNat) := by
    refine ⟨_, hdoc.init bytes _ _, rfl, UInt16.toNat_toUInt32 _, UInt16.toNat_toUInt32 _, ?_,
      OsRing.countOk_pos hcount⟩
    rw [hlen, Nat.mul_comm]
  refine ⟨_, ?_, hholds⟩
  rw [zephyrQueueRun, hinit]

theorem zephyr_answers_iff {K : Type} {kernel : KMsgq K} {R : K → KState → Prop}
    (hdoc : kernel.Documented R) (hput : PutsWithoutWaiting kernel)
    (hcount : OsRing.countOk maxMsgs = true) {bytes : List UInt8}
    (hheap : heap.request (msgSize.toNat * maxMsgs.toNat) = some bytes)
    (hsize : ∀ c ∈ calls, OfSize msgSize.toNat c) (msgq : Zephyr.PosQueue K) :
    (zephyrQueueRun kernel heap msgq msgSize maxMsgs calls = .ok (queueRun maxMsgs calls) ↔
      AllServed maxMsgs calls) ∧
    NeverBusy (zephyrQueueRun kernel heap msgq msgSize maxMsgs calls) := by
  obtain ⟨msgq', hrun, hholds⟩ := zephyrQueueRun_eq calls hdoc hcount hheap msgq
  rw [hrun]
  refine ⟨?_, neverBusy_of_calls (zephyrQueue_ne_ebusy hput) msgq' calls⟩
  rw [AllServed, ← answers_iff _ (zephyrQueue_served hdoc) (zephyrQueue_ne_ebusy hput) hholds hsize]
  exact cons_reply_eq_ok

theorem freeRtos_answers_iff {Q : Type} {kernel : FreeRtos.QueueKernel Q}
    {xQueueCreate : ℕ → ℕ → Option Q} {inIsr : Bool} {stored : Q → List (List UInt8)}
    (hdoc : kernel.Documented stored maxMsgs.toNat) (hserves : kernel.Serves stored maxMsgs.toNat)
    {handle : Q} (hcreate : xQueueCreate maxMsgs.toNat msgSize.toNat = some handle)
    (hempty : stored handle = []) (hsize : ∀ c ∈ calls, OfSize msgSize.toNat c) :
    (freeRtosQueueRun kernel xQueueCreate b inIsr msgSize maxMsgs calls =
        .ok (queueRun maxMsgs calls) ↔ AllServed maxMsgs calls) ∧
    NeverBusy (freeRtosQueueRun kernel xQueueCreate b inIsr msgSize maxMsgs calls) := by
  have hholds : FreeRtosHolds stored (some handle)
      (.nil : BoundedFifo (List UInt8) maxMsgs.toNat) := ⟨handle, rfl, hempty⟩
  rw [freeRtosQueueRun, FreeRtos.posQueueInit, hcreate]
  refine ⟨?_, neverBusy_of_calls (freeRtosQueue_ne_ebusy hdoc) (some handle) calls⟩
  rw [AllServed,
    ← answers_iff _ (fun queue q c hR _ => freeRtosQueue_served hdoc hserves queue q c hR)
      (freeRtosQueue_ne_ebusy hdoc) hholds hsize]
  exact cons_reply_eq_ok

theorem rtThread_answers_iff {M : Type} {kernel : RtThread.Queue.MsgQueueKernel M}
    {stored : M → List (List UInt8)} {capacity : M → ℕ}
    (hdoc : kernel.Documented stored capacity) {mq : M}
    (hcreate : kernel.rtMqCreate msgSize.toNat maxMsgs.toNat = some mq)
    (hsize : ∀ c ∈ calls, OfSize msgSize.toNat c) (queue : RtThread.Queue.PosQueue M) :
    (rtThreadQueueRun kernel b queue msgSize maxMsgs calls = .ok (queueRun maxMsgs calls) ↔
      AllServed maxMsgs calls) ∧
    NeverBusy (rtThreadQueueRun kernel b queue msgSize maxMsgs calls) := by
  obtain ⟨hempty, hcap, hmsg⟩ := hdoc.create _ _ _ hcreate
  have hholds : RtThreadHolds kernel stored capacity msgSize.toNat (some { handle := some mq })
      (.nil : BoundedFifo (List UInt8) maxMsgs.toNat) := ⟨mq, rfl, hempty, hcap, hmsg⟩
  have hinit : RtThread.Queue.posQueueInit kernel b (some queue) msgSize.toNat maxMsgs.toNat =
      .ok (some { handle := some mq }, .ok) := by
    simp [RtThread.Queue.posQueueInit, hcreate, bind, Except.bind, pure, Except.pure]
  rw [rtThreadQueueRun, hinit]
  refine ⟨?_, neverBusy_of_calls rtThreadQueue_ne_ebusy (some { handle := some mq }) calls⟩
  rw [AllServed,
    ← answers_iff _ (rtThreadQueue_served (b := b) hdoc) rtThreadQueue_ne_ebusy hholds hsize]
  exact cons_reply_eq_ok

/-- **The four ports answer as the header says** exactly as long as all calls can be served, on
each port by itself: for any number of messages that is a power of two, any message size below
`2 ^ 16` and any sequence of calls, on queues that could be made. In no program does any port
return `POS_EBUSY`. -/
theorem queue_answers_iff {K Q M : Type} (b : Build)
    {zephyr : KMsgq K} {R : K → KState → Prop} (hzephyr : zephyr.Documented R)
    (hput : PutsWithoutWaiting zephyr)
    {freeRtos : FreeRtos.QueueKernel Q} (xQueueCreate : ℕ → ℕ → Option Q)
    {stored : Q → List (List UInt8)} (hfreeRtos : freeRtos.Documented stored maxMsgs.toNat)
    (hserves : freeRtos.Serves stored maxMsgs.toNat)
    {rtThread : RtThread.Queue.MsgQueueKernel M} {kept : M → List (List UInt8)}
    {capacity : M → ℕ} (hrtThread : rtThread.Documented kept capacity)
    (hcount : OsRing.countOk maxMsgs = true)
    {bytes : List UInt8} (hheap : heap.request (msgSize.toNat * maxMsgs.toNat) = some bytes)
    {handle : Q} (hcreate : xQueueCreate maxMsgs.toNat msgSize.toNat = some handle)
    (hempty : stored handle = [])
    {mq : M} (hmq : rtThread.rtMqCreate msgSize.toNat maxMsgs.toNat = some mq)
    (hsize : ∀ c ∈ calls, OfSize msgSize.toNat c) :
    ((posixQueueRun b heap msgSize maxMsgs calls = .ok (queueRun maxMsgs calls) ↔
        AllServed maxMsgs calls) ∧
      NeverBusy (posixQueueRun b heap msgSize maxMsgs calls)) ∧
    (∀ msgq, (zephyrQueueRun zephyr heap msgq msgSize maxMsgs calls =
        .ok (queueRun maxMsgs calls) ↔ AllServed maxMsgs calls) ∧
      NeverBusy (zephyrQueueRun zephyr heap msgq msgSize maxMsgs calls)) ∧
    (∀ inIsr, (freeRtosQueueRun freeRtos xQueueCreate b inIsr msgSize maxMsgs calls =
        .ok (queueRun maxMsgs calls) ↔ AllServed maxMsgs calls) ∧
      NeverBusy (freeRtosQueueRun freeRtos xQueueCreate b inIsr msgSize maxMsgs calls)) ∧
    ∀ queue, (rtThreadQueueRun rtThread b queue msgSize maxMsgs calls =
        .ok (queueRun maxMsgs calls) ↔ AllServed maxMsgs calls) ∧
      NeverBusy (rtThreadQueueRun rtThread b queue msgSize maxMsgs calls) :=
  ⟨posix_answers_iff hcount hheap hsize,
    zephyr_answers_iff hzephyr hput hcount hheap hsize,
    fun _ => freeRtos_answers_iff hfreeRtos hserves hcreate hempty hsize,
    rtThread_answers_iff hrtThread hmq hsize⟩

end Programs

/-! ## A program -/

theorem listKernel_putsWithoutWaiting : PutsWithoutWaiting listKernel := by
  intro k data k' err h
  simp only [listKernel] at h
  by_cases hroom : k.stored.length < k.maxMsgs
  · by_cases hslot : (k.next + 1) * k.msgSize ≤ k.bufferLen
    · rw [if_pos hroom, if_pos hslot] at h
      cases h
      exact .inl rfl
    · rw [if_pos hroom, if_neg hslot] at h
      cases h
  · rw [if_neg hroom] at h
    cases h
    exact .inr rfl

/-- A native queue of RT-Thread: its message size, its capacity and its messages. -/
def listMqKernel : RtThread.Queue.MsgQueueKernel (ℕ × ℕ × List (List UInt8)) where
  rtMqCreate msgSize maxMsgs := some (msgSize, maxMsgs, [])
  msgSize mq := mq.1
  rtMqSend mq data _ :=
    if mq.2.2.length < mq.2.1 then ((mq.1, mq.2.1, mq.2.2 ++ [data]), 0) else (mq, -3)
  rtMqRecv mq out _ ticks :=
    match mq.2.2 with
    | item :: rest => .ok ((mq.1, mq.2.1, rest), item, 0)
    | [] => if ticks < 0 then .error .blocked else .ok (mq, out, -2)

theorem listMqKernel_documented :
    listMqKernel.Documented (fun mq => mq.2.2) (fun mq => mq.2.1) where
  create msgSize maxMsgs mq h := by
    cases h
    exact ⟨rfl, rfl, rfl⟩
  send mq data _ hroom := by
    refine ⟨(mq.1, mq.2.1, mq.2.2 ++ [data]), ?_, rfl, rfl, rfl⟩
    simp only [listMqKernel, hroom, if_true, RtThread.Queue.RT_EOK]
  recv mq out ticks item rest _ hstored := by
    refine ⟨(mq.1, mq.2.1, rest), ?_, rfl, rfl, rfl⟩
    simp only [listMqKernel, hstored, RtThread.Queue.RT_EOK]

/-- Two messages are put, and one of them is got. -/
theorem queue_answers_iff_sample :
    let calls : List MsgCall := [.put [1, 2], .put [3, 4], .get [0, 0]]
    posixQueueRun ⟨false⟩ .zeroed 2 2 calls = .ok (queueRun 2 calls) ∧
    zephyrQueueRun listKernel .zeroed ⟨⟨0, 0, 0, [], 0⟩, none, none, 0⟩ 2 2 calls =
      .ok (queueRun 2 calls) ∧
    freeRtosQueueRun (FreeRtos.listKernel 2) (fun _ _ => some []) ⟨false⟩ true 2 2 calls =
      .ok (queueRun 2 calls) ∧
    rtThreadQueueRun listMqKernel ⟨false⟩ ⟨none⟩ 2 2 calls = .ok (queueRun 2 calls) := by
  intro calls
  have hserved : AllServed 2 calls := by
    simp [calls, AllServed, AlwaysCalls, Served, messageQueue, BoundedFifo.nil]
  have hsize : ∀ c ∈ calls, OfSize (2 : UInt16).toNat c := by
    simp [calls, OfSize]
  have hheap : Allocator.zeroed.request ((2 : UInt16).toNat * (2 : UInt16).toNat) =
      some [0, 0, 0, 0] := rfl
  obtain ⟨hposix, hzephyr, hfreeRtos, hrtThread⟩ :=
    queue_answers_iff ⟨false⟩ listKernel_documented listKernel_putsWithoutWaiting
      (fun _ _ => some []) (FreeRtos.listKernel_documented _) (FreeRtos.listKernel_serves _)
      listMqKernel_documented (show OsRing.countOk 2 = true by decide) hheap rfl rfl rfl hsize
  exact ⟨hposix.1.mpr hserved, (hzephyr _).1.mpr hserved, (hfreeRtos true).1.mpr hserved,
    (hrtThread _).1.mpr hserved⟩

end Poski.Ports
