import Poski.Osal.Types

/-!
# The RT-Thread Queue

`os_queue.c` of the RT-Thread port. The native message queue is a parameter; a message is as
long as the native queue says, `handle->msg_size`.

- `MsgQueueKernel.Documented` : what is relied on
-/

namespace Poski.RtThread.Queue

/-- `rt_err_t`; the other codes are negative. -/
abbrev RtErr := Int

def RT_EOK : RtErr := 0

/-- The native calls, on a queue `M`: `rt_mq_create` with a message size and a number of
messages, the field `msg_size`, `rt_mq_send` and `rt_mq_recv` with a size and, for the
latter, a number of ticks. -/
structure MsgQueueKernel (M : Type) where
  rtMqCreate : ℕ → ℕ → Option M
  msgSize : M → ℕ
  rtMqSend : M → List UInt8 → ℕ → M × RtErr
  rtMqRecv : M → List UInt8 → ℕ → ℤ → Except Halt (M × List UInt8 × RtErr)

/-- The documented behaviour, for queues whose messages are `stored`: a new queue is empty and
has the sizes asked for, and a call that can be served returns `RT_EOK`. Versions of the kernel
that round `msg_size` up to a multiple of `RT_ALIGN_SIZE` behave so for sizes that are multiples
of it. -/
structure MsgQueueKernel.Documented {M : Type} (kernel : MsgQueueKernel M)
    (stored : M → List (List UInt8)) (capacity : M → ℕ) : Prop where
  create : ∀ msgSize maxMsgs mq, kernel.rtMqCreate msgSize maxMsgs = some mq →
    stored mq = [] ∧ capacity mq = maxMsgs ∧ kernel.msgSize mq = msgSize
  send : ∀ mq data, data.length = kernel.msgSize mq → (stored mq).length < capacity mq →
    ∃ mq', kernel.rtMqSend mq data (kernel.msgSize mq) = (mq', RT_EOK) ∧
      stored mq' = stored mq ++ [data] ∧ capacity mq' = capacity mq ∧
      kernel.msgSize mq' = kernel.msgSize mq
  recv : ∀ mq out ticks item rest, out.length = kernel.msgSize mq → stored mq = item :: rest →
    ∃ mq', kernel.rtMqRecv mq out (kernel.msgSize mq) ticks = .ok (mq', item, RT_EOK) ∧
      stored mq' = rest ∧ capacity mq' = capacity mq ∧ kernel.msgSize mq' = kernel.msgSize mq

/-- `struct pos_queue`. -/
structure PosQueue (M : Type) where
  handle : Option M

variable {M : Type} (kernel : MsgQueueKernel M) (b : Build)

/-- `pos_queue_init`; `none` is a null pointer, here and below. -/
def posQueueInit (msgq : Option (PosQueue M)) (msgSize maxMsgs : ℕ) :
    Except Halt (Option (PosQueue M) × PosError) :=
  match msgq with
  | none => .ok (none, .invalidParam)
  | some _ => do
    let msgq : PosQueue M := { handle := kernel.rtMqCreate msgSize maxMsgs }
    b.assert msgq.handle.isSome
    return (some msgq, if msgq.handle.isSome then .ok else .error)

/-- `pos_queue_get`, which does not check the pointer. -/
def posQueueGet (queue : Option (PosQueue M)) (data : List UInt8) (tmo : UInt32) :
    Except Halt (Option (PosQueue M) × List UInt8 × PosError) :=
  match queue with
  | none => .error .nullDeref
  | some queue => do
    b.assert queue.handle.isSome
    match queue.handle with
    | none => .error .nullDeref
    | some mq => do
      let (mq, data, ret) ← kernel.rtMqRecv mq data (kernel.msgSize mq) tmo.toInt32.toInt
      return (some { handle := some mq }, data, if ret = RT_EOK then .ok else .error)

/-- `pos_queue_put`. -/
def posQueuePut (queue : Option (PosQueue M)) (data : List UInt8) :
    Except Halt (Option (PosQueue M) × PosError) :=
  match queue with
  | none => .ok (none, .invalidParam)
  | some queue => do
    b.assert queue.handle.isSome
    match queue.handle with
    | none => .error .nullDeref
    | some mq =>
      let (mq, ret) := kernel.rtMqSend mq data (kernel.msgSize mq)
      return (some { handle := some mq }, if ret ≠ RT_EOK then .error else .ok)

variable {kernel b} {mq mq' : M} {data out : List UInt8}

/-- What the calls do with a queue that has been created. -/
theorem posQueueGet_of_recv {tmo : UInt32} {ret : RtErr}
    (h : kernel.rtMqRecv mq out (kernel.msgSize mq) tmo.toInt32.toInt = .ok (mq', data, ret)) :
    posQueueGet kernel b (some { handle := some mq }) out tmo =
      .ok (some { handle := some mq' }, data, if ret = RT_EOK then .ok else .error) := by
  simp [posQueueGet, h, bind, Except.bind, pure, Except.pure]

theorem posQueuePut_of_send {ret : RtErr}
    (h : kernel.rtMqSend mq data (kernel.msgSize mq) = (mq', ret)) :
    posQueuePut kernel b (some { handle := some mq }) data =
      .ok (some { handle := some mq' }, if ret ≠ RT_EOK then .error else .ok) := by
  simp [posQueuePut, h, bind, Except.bind, pure, Except.pure]

/-- Neither call ever returns `POS_EBUSY`. -/
theorem posQueueGet_ne_ebusy {queue queue' : Option (PosQueue M)} {tmo : UInt32}
    {err : PosError} (h : posQueueGet kernel b queue out tmo = .ok (queue', data, err)) :
    err ≠ .ebusy := by
  rcases queue with - | ⟨- | mq⟩
  · cases h
  · obtain ⟨_, _, h⟩ := bind_eq_ok.mp h
    cases h
  · obtain ⟨_, _, h⟩ := bind_eq_ok.mp h
    obtain ⟨⟨mq', data', ret⟩, _, h⟩ := bind_eq_ok.mp h
    cases h
    split <;> simp

theorem posQueuePut_ne_ebusy {queue queue' : Option (PosQueue M)} {err : PosError}
    (h : posQueuePut kernel b queue data = .ok (queue', err)) : err ≠ .ebusy := by
  rcases queue with - | ⟨- | mq⟩
  · cases h
    simp
  · obtain ⟨_, _, h⟩ := bind_eq_ok.mp h
    cases h
  · obtain ⟨_, _, h⟩ := bind_eq_ok.mp h
    cases h
    split <;> simp

end Poski.RtThread.Queue
