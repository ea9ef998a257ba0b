import Poski.Osal.Types

/-!
# Native Calls on POSIX

The codes that native calls return, `map_posix_to_osal_error` of `os_utils.c` over them, and
the limit of a recursive pthread mutex.
-/

namespace Poski.Posix

/-- What a native call returns: zero, one of the `errno` values that the port knows, or any
other value, such as the `-1` of a failing `clock_gettime`. -/
inductive Errno where
  | success
  | ENOMEM
  | ETIMEDOUT
  | EBUSY
  | EINVAL
  | EDEADLK
  | EPERM
  | other (code : Int)
  deriving DecidableEq, Repr

/-- A signal has interrupted the call. The port's error mapping does not know the value. -/
def EINTR : Errno := .other 4

/-- `pos_error_t map_posix_to_osal_error(int ret)`. -/
def mapPosixToOsalError : Errno → PosError
  | .success => .ok
  | .ENOMEM => .enomem
  | .ETIMEDOUT => .timeout
  | .EBUSY => .ebusy
  | .EINVAL => .einval
  | .EDEADLK => .badMutex
  | .EPERM => .errPriv
  | .other _ => .error

/-- Only a native success is reported as `POS_OK`. -/
theorem mapPosixToOsalError_eq_ok {ret : Errno} :
    mapPosixToOsalError ret = .ok ↔ ret = .success := by
  cases ret <;> simp [mapPosixToOsalError]

/-- The most times that one task can lock a recursive mutex. -/
def mutexLimit : ℕ := 2 ^ 32 - 1

end Poski.Posix
