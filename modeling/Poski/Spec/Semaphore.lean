import Poski.Lib.ObjectRefinement
import Poski.Osal.Types

/-!
# Counting Semaphores

What a semaphore is for, as far as its calls return at once: it counts tokens, which are
given and taken. The ports' semaphores are compared with this object.
-/

namespace Poski.Spec

open Lib

/-- `pos_sem_give`, or `pos_sem_take` with `POS_TIME_NO_WAIT`. -/
inductive SemCall where
  | give
  | take
  deriving DecidableEq, Repr

/-- A token is added; a token is taken, if there is one. -/
def semaphore (tokens : ℕ) : SemCall → ℕ × PosError
  | .give => (tokens + 1, .ok)
  | .take => if 0 < tokens then (tokens - 1, .ok) else (tokens, .timeout)

@[simp] theorem semaphore_give (n : ℕ) : semaphore n .give = (n + 1, .ok) := rfl

@[simp] theorem semaphore_take_zero : semaphore 0 .take = (0, .timeout) := rfl

@[simp] theorem semaphore_take_succ (n : ℕ) : semaphore (n + 1) .take = (n, .ok) := rfl

/-- After the call there are no more tokens than a `uint16_t` can count. -/
def FitsUInt16 (tokens : ℕ) (c : SemCall) : Prop := (semaphore tokens c).1 ≤ 65535

end Poski.Spec
