import Mathlib.Algebra.Group.Nat.Defs
import Poski.Lib.Slice

/-!
# Types Shared by All Ports

`pos_error` of `os_types.h`, and the few pieces of the C language that the modelled
functions use: the `assert` macro in its two build modes, the ways in which a call can
fail to return, heap allocation and `memcpy`.
-/

namespace Poski

/-- `enum pos_error` (os_types.h). -/
inductive PosError where
  | ok
  | enomem
  | einval
  | invalidParam
  | memNotAligned
  | badMutex
  | timeout
  | errInIsr
  | errPriv
  | osNotStarted
  | enoent
  | ebusy
  | error
  deriving DecidableEq, Repr

/-- Why a call does not return to its caller. -/
inductive Halt where
  /-- A failed `assert` aborts the process. -/
  | assertion
  /-- An access outside the object it is made to: undefined behaviour. -/
  | outOfBounds
  /-- Signed overflow: undefined behaviour. -/
  | overflow
  /-- A null pointer is dereferenced: undefined behaviour. -/
  | nullDeref
  /-- `operator new` throws `std::bad_alloc`. -/
  | badAlloc
  /-- The call waits for something that nobody else is there to do. -/
  | blocked
  deriving DecidableEq, Repr

/-- What a `do` block has executed when it returns. -/
theorem bind_eq_ok {ε α β : Type} {x : Except ε α} {f : α → Except ε β} {y : β} :
    (x >>= f) = .ok y ↔ ∃ a, x = .ok a ∧ f a = .ok y := by
  cases x <;> simp [bind, Except.bind]

/-- A build either compiles assertions in or, with `NDEBUG`, out. -/
structure Build where
  ndebug : Bool
  deriving DecidableEq, Repr

/-- The `assert` macro. -/
def Build.assert (b : Build) (cond : Bool) : Except Halt Unit :=
  if b.ndebug || cond then .ok () else .error .assertion

@[simp] theorem Build.assert_true (b : Build) : b.assert true = .ok () := by
  simp [Build.assert]

theorem Build.assert_eq_ok {b : Build} {cond : Bool} {u : Unit} :
    b.assert cond = .ok u ↔ b.ndebug = true ∨ cond = true := by
  cases hn : b.ndebug <;> cases cond <;> simp [Build.assert, hn]

theorem Build.assert_eq_error {b : Build} {cond : Bool} {e : Halt} :
    b.assert cond = .error e ↔ (b.ndebug = false ∧ cond = false) ∧ e = .assertion := by
  cases hn : b.ndebug <;> cases cond <;> simp [Build.assert, hn, eq_comm]

/-- The heap, as seen by one allocation: what block a request of `n` bytes gets, if any.
A block that is handed out has the size asked for; its bytes are not initialised. -/
structure Allocator where
  request : ℕ → Option (List UInt8)
  length_of_request : ∀ n bytes, request n = some bytes → bytes.length = n

/-- `new uint8_t[n]`, which throws instead of returning a null pointer. -/
def Allocator.operatorNew (heap : Allocator) (n : ℕ) : Except Halt (List UInt8) :=
  match heap.request n with
  | some bytes => .ok bytes
  | none => .error .badAlloc

theorem Allocator.length_of_operatorNew {heap : Allocator} {n : ℕ} {bytes : List UInt8}
    (h : heap.operatorNew n = .ok bytes) : bytes.length = n := by
  unfold Allocator.operatorNew at h
  split at h
  · cases h
    exact heap.length_of_request _ _ ‹_›
  · cases h

/-- A heap that serves every request with zeroed bytes. -/
def Allocator.zeroed : Allocator where
  request n := some (List.replicate n 0)
  length_of_request := by
    intro n bytes h
    cases h
    exact List.length_replicate

/-- `INT_MAX` of a 32-bit `int`. -/
def INT_MAX : ℕ := 2147483647

/-- The product of two non-negative `int` values. -/
def intMul (x y : ℕ) : Except Halt ℕ :=
  if x * y ≤ INT_MAX then .ok (x * y) else .error .overflow

theorem intMul_eq_ok {x y n : ℕ} : intMul x y = .ok n ↔ x * y ≤ INT_MAX ∧ n = x * y := by
  unfold intMul
  by_cases hle : x * y ≤ INT_MAX
  · simp [hle, eq_comm]
  · simp [hle]

open Lib in
/-- `memcpy(&dst[off], src, n)`: `n` bytes have to be there on both sides. -/
def memcpy (dst : List UInt8) (off : ℕ) (src : List UInt8) (n : ℕ) :
    Except Halt (List UInt8) :=
  if n ≤ src.length ∧ off + n ≤ dst.length then .ok (splice dst off (src.take n))
  else .error .outOfBounds

open Lib in
theorem memcpy_eq_ok {dst src out : List UInt8} {off n : ℕ} :
    memcpy dst off src n = .ok out ↔
      (n ≤ src.length ∧ off + n ≤ dst.length) ∧ out = splice dst off (src.take n) := by
  unfold memcpy
  by_cases hguard : n ≤ src.length ∧ off + n ≤ dst.length
  · simp [hguard, eq_comm]
  · simp [hguard]

end Poski
