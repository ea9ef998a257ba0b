import Poski.Osal.Types
import Poski.Lib.ObjectRefinement
import Poski.Spec.BoundedFifo

/-!
# Message Queues as Their Users See Them

What `os_queue.h` says about a put, and about a get that does not wait: messages leave in the
order in which they came, and a call that cannot be served is "returned without waiting",
with `POS_EBUSY`.

- `messageQueue` : the specification
- `Served` : the calls that can be served
- `answers_iff` : an implementation that never returns `POS_EBUSY` answers as it should
  exactly as long as all calls are served
-/

namespace Poski.Spec

open Lib

/-- A call, with the memory that its pointer argument leads to. -/
inductive MsgCall where
  | put (data : List UInt8)
  /-- With `POS_TIME_NO_WAIT`. -/
  | get (out : List UInt8)
  deriving DecidableEq, Repr

/-- The code, and that memory after the call. -/
abbrev MsgReply := PosError × List UInt8

variable {cap msgSize : ℕ}

/-- A queue of at most `cap` messages. -/
def messageQueue (q : BoundedFifo (List UInt8) cap) :
    MsgCall → BoundedFifo (List UInt8) cap × MsgReply
  | .put data =>
    if h : q.items.length < cap then (q.push data h, .ok, data) else (q, .ebusy, data)
  | .get out =>
    match q.items with
    | [] => (q, .ebusy, out)
    | item :: _ => (q.pop, .ok, item)

/-- There is room for the message of a put, or a message for a get. -/
def Served (q : BoundedFifo (List UInt8) cap) : MsgCall → Prop
  | .put _ => q.items.length < cap
  | .get _ => q.items ≠ []

/-- The pointer argument leads to as many bytes as a message has. -/
def OfSize (msgSize : ℕ) : MsgCall → Prop
  | .put data => data.length = msgSize
  | .get out => out.length = msgSize

theorem messageQueue_put {q : BoundedFifo (List UInt8) cap} {data : List UInt8}
    (h : q.items.length < cap) : messageQueue q (.put data) = (q.push data h, .ok, data) := by
  simp [messageQueue, h]

theorem messageQueue_get {q : BoundedFifo (List UInt8) cap} {out item : List UInt8}
    {rest : List (List UInt8)} (h : q.items = item :: rest) :
    messageQueue q (.get out) = (q.pop, .ok, item) := by
  simp [messageQueue, h]

/-- What cannot be served is returned without waiting. -/
theorem messageQueue_not_served {q : BoundedFifo (List UInt8) cap} {c : MsgCall}
    (h : ¬Served q c) : (messageQueue q c).2.1 = .ebusy := by
  cases c with
  | put data =>
    have hfull : ¬q.items.length < cap := h
    simp [messageQueue, hfull]
  | get out =>
    have hempty : q.items = [] := not_not.mp h
    simp [messageQueue, hempty]

/-- **Implementations that never return `POS_EBUSY`**: if calls of the right size that can be
served are answered as they should be, a sequence of such calls is answered as it should be
exactly if all of them can be served. -/
theorem answers_iff {σ : Type} {queue : σ → MsgCall → Except Halt (σ × MsgReply)}
    (R : σ → BoundedFifo (List UInt8) cap → Prop)
    (hserved : ∀ s q c, R s q → OfSize msgSize c → Served q c →
      ∃ s', queue s c = .ok (s', (messageQueue q c).2) ∧ R s' (messageQueue q c).1)
    (hbusy : ∀ s c s' reply, queue s c = .ok (s', reply) → reply.1 ≠ .ebusy)
    {s : σ} {q : BoundedFifo (List UInt8) cap} (hR : R s q) {calls : List MsgCall}
    (hsize : ∀ c ∈ calls, OfSize msgSize c) :
    replies queue s calls = .ok (specReplies messageQueue q calls) ↔
      AlwaysCalls messageQueue Served q calls := by
  have hallowed : AlwaysCalls messageQueue (fun _ c => OfSize msgSize c) q calls := by
    clear hR
    induction calls generalizing q with
    | nil => trivial
    | cons c calls ih =>
      exact ⟨hsize c List.mem_cons_self, ih fun c hc => hsize c (List.mem_cons_of_mem _ hc)⟩
  refine replies_eq_iff Served R hserved ?_ hR hallowed
  intro s q c _ _ hnot s' hcall
  exact hbusy s c s' _ hcall (messageQueue_not_served hnot)

end Poski.Spec
