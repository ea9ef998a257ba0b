import Poski.Osal.Types

/-!
# OsQueue

The C++ wrapper of `OsQueue.h`, over the queue `Q` of any port. The port's functions are
parameters; what they may do besides returning is in the type of their results.
-/

namespace Poski

variable {Q : Type}

/-- A call `sig_cb(sig_arg)` of a queue's signal callback, by the addresses of both. -/
structure Signal where
  sigCb : ℕ
  sigArg : ℕ
  deriving DecidableEq, Repr

/-- `class OsQueue<T, QueueSize>`. -/
structure OsQueue (Q : Type) where
  queue : Q
  initialized : Bool
  initStatus : PosError

namespace OsQueue

/-- `OsQueue()`; `sizeofT` is `sizeof(T)`. -/
def construct (b : Build) (posQueueInit : UInt64 → UInt64 → Except Halt (Q × PosError))
    (sizeofT queueSize : UInt64) : Except Halt (OsQueue Q) := do
  let (queue, initStatus) ← posQueueInit sizeofT queueSize
  b.assert (initStatus == .ok)
  return { queue, initialized := initStatus == .ok, initStatus }

/-- `pos_error_t Push(const T& item)`; `item` are the bytes of the copy that is put. -/
def push (posQueuePut : Q → List UInt8 → Except Halt (Q × PosError × Option Signal))
    (o : OsQueue Q) (item : List UInt8) :
    Except Halt (OsQueue Q × PosError × Option Signal) :=
  if !o.initialized then
    .ok (o, .einval, none)
  else do
    let (queue, err, signal) ← posQueuePut o.queue item
    return ({ o with queue }, err, signal)

end OsQueue

end Poski
