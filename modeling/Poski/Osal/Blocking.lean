import Mathlib.Data.Int.Notation
import Poski.Osal.Types

/-!
# Functions That Block

`pos_mutex_lock`, `pos_sem_take` and `pos_queue_get` end in one native call that may block.
Such a function is modelled up to that call: it returns before, or it makes the call with
some number of ticks and then returns what it makes of the call's result.
-/

namespace Poski

/-- A native call: the ticks it is handed, and what the port returns for each result. -/
structure NativeCall (Ret : Type) where
  ticks : ℤ
  result : Ret → Except Halt PosError

/-- A pointer to an object of the port: `NULL`, or an object with or without a handle. -/
inductive ObjectPtr where
  | null
  | object (hasHandle : Bool)
  deriving DecidableEq, Repr

/-- A valid pointer to an initialised object. -/
def ObjectPtr.inited : ObjectPtr := .object true

/-- What most of the functions do: refuse `NULL`, assert that there is a handle, and block. -/
def blockOn {Ret : Type} (b : Build) (obj : ObjectPtr) (ticks : ℤ)
    (result : Ret → Except Halt PosError) : Except Halt (PosError ⊕ NativeCall Ret) :=
  match obj with
  | .null => .ok (.inl .invalidParam)
  | .object hasHandle => do
    b.assert hasHandle
    return .inr { ticks := ticks, result := result }

@[simp] theorem blockOn_inited {Ret : Type} (b : Build) (ticks : ℤ)
    (result : Ret → Except Halt PosError) :
    blockOn b .inited ticks result = .ok (.inr { ticks := ticks, result := result }) := by
  simp [blockOn, ObjectPtr.inited, bind, Except.bind, pure, Except.pure]

end Poski
