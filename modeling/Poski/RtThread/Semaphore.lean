import Poski.Osal.NativeSemaphore
import Poski.RtThread.Blocking

/-!
# The RT-Thread Semaphore

`os_sem.c` of the RT-Thread port, each call executed as a whole, and its pointer argument not
`NULL`. A semaphore of the kernel counts in 16 bits, and refuses to be released at its maximum.

- `SemaphoreKernel.Documented` : what is relied on
-/

namespace Poski.RtThread.Semaphore

open Lib

def RT_SEM_VALUE_MAX : ℕ := 65535

def RT_ETIMEOUT : RtErr := 2

def RT_EFULL : RtErr := 3

/-! ## The native semaphore -/

/-- The native calls, on a semaphore `S`; a negative timeout is for ever. -/
structure SemaphoreKernel (S : Type) where
  rtSemCreate : ℕ → Option S
  rtSemTake : S → ℤ → Except Halt (S × RtErr)
  rtSemRelease : S → S × RtErr

variable {S : Type}

/-- The documented behaviour, as far as semaphores are used without waiting. -/
structure SemaphoreKernel.Documented (kernel : SemaphoreKernel S) (count : S → ℕ) : Prop where
  create : ∀ tokens s, kernel.rtSemCreate tokens = some s → count s = tokens
  calls : CountsTokens (fun s => kernel.rtSemTake s 0) kernel.rtSemRelease count RT_SEM_VALUE_MAX
    RT_EOK (· ≠ RT_EOK) (· ≠ RT_EOK)

/-! ## os_sem.c -/

/-- `struct pos_sem`: the handle of a native semaphore, or `NULL`. -/
structure PosSem (S : Type) where
  handle : Option S

variable (kernel : SemaphoreKernel S) (b : Build)

/-- `pos_sem_init`. -/
def posSemInit (tokens : UInt16) : Except Halt (PosSem S × PosError) := do
  let sem : PosSem S := { handle := kernel.rtSemCreate tokens.toNat }
  b.assert sem.handle.isSome
  return (sem, .ok)

/-- `pos_sem_take`. -/
def posSemTake (sem : PosSem S) (timeout : UInt32) : Except Halt (PosSem S × PosError) := do
  b.assert sem.handle.isSome
  match sem.handle with
  | none => .error .nullDeref
  | some handle =>
    let (handle, ret) ← kernel.rtSemTake handle timeout.toInt32.toInt
    return ({ handle := some handle }, if ret = RT_EOK then .ok else .timeout)

/-- `pos_sem_give`. -/
def posSemGive (sem : PosSem S) : Except Halt (PosSem S × PosError) := do
  b.assert sem.handle.isSome
  match sem.handle with
  | none => .error .nullDeref
  | some handle =>
    let (handle, ret) := kernel.rtSemRelease handle
    return ({ handle := some handle }, if ret = RT_EOK then .ok else .error)

/-! ## What the calls do -/

variable {kernel b} {handle handle' : S} {ret : RtErr}

theorem posSemTake_of_take {timeout : UInt32}
    (h : kernel.rtSemTake handle timeout.toInt32.toInt = .ok (handle', ret)) :
    posSemTake kernel b { handle := some handle } timeout =
      .ok ({ handle := some handle' }, if ret = RT_EOK then .ok else .timeout) := by
  simp [posSemTake, h, bind, Except.bind, pure, Except.pure]

theorem posSemGive_of_release (h : kernel.rtSemRelease handle = (handle', ret)) :
    posSemGive kernel b { handle := some handle } =
      .ok ({ handle := some handle' }, if ret = RT_EOK then .ok else .error) := by
  simp [posSemGive, h, bind, Except.bind, pure, Except.pure]

section Documented

variable {count : S → ℕ} (hdoc : kernel.Documented count)
include hdoc

theorem posSemInit_of_create {tokens : UInt16}
    (hcreate : kernel.rtSemCreate tokens.toNat = some handle) :
    posSemInit kernel b tokens = .ok ({ handle := some handle }, .ok) ∧
      count handle = tokens.toNat := by
  refine ⟨?_, hdoc.create _ _ hcreate⟩
  simp [posSemInit, hcreate, bind, Except.bind, pure, Except.pure]

theorem posSemTake_pos (hpos : 0 < count handle) :
    ∃ handle', posSemTake kernel b { handle := some handle } 0 =
      .ok ({ handle := some handle' }, .ok) ∧ count handle = count handle' + 1 := by
  obtain ⟨handle', htake, hcount⟩ := hdoc.calls.take_pos handle hpos
  have htake' : kernel.rtSemTake handle (0 : UInt32).toInt32.toInt = .ok (handle', RT_EOK) := htake
  exact ⟨handle', posSemTake_of_take htake', hcount⟩

theorem posSemTake_zero (hzero : count handle = 0) :
    ∃ handle', posSemTake kernel b { handle := some handle } 0 =
      .ok ({ handle := some handle' }, .timeout) ∧ count handle' = 0 := by
  obtain ⟨handle', ret, htake, hempty, hcount⟩ := hdoc.calls.take_zero handle hzero
  have htake' : kernel.rtSemTake handle (0 : UInt32).toInt32.toInt = .ok (handle', ret) := htake
  exact ⟨handle', (posSemTake_of_take htake').trans (by rw [if_neg hempty]), hcount⟩

theorem posSemGive_lt (hlt : count handle < RT_SEM_VALUE_MAX) :
    ∃ handle', posSemGive kernel b { handle := some handle } =
      .ok ({ handle := some handle' }, .ok) ∧ count handle' = count handle + 1 := by
  obtain ⟨handle', hrelease, hcount⟩ := hdoc.calls.give_lt handle hlt
  exact ⟨handle', posSemGive_of_release hrelease, hcount⟩

/-- A give at the maximum is reported. -/
theorem posSemGive_max (hmax : RT_SEM_VALUE_MAX ≤ count handle) :
    ∃ handle', posSemGive kernel b { handle := some handle } =
      .ok ({ handle := some handle' }, .error) ∧ count handle' = count handle := by
  obtain ⟨handle', ret, hrelease, hfull, hcount⟩ := hdoc.calls.give_max handle hmax
  exact ⟨handle', (posSemGive_of_release hrelease).trans (by rw [if_neg hfull]), hcount⟩

end Documented

/-! ## A kernel -/

/-- A kernel that counts, and always has memory. -/
def countingKernel : SemaphoreKernel (CountingSem RT_SEM_VALUE_MAX) where
  rtSemCreate := CountingSem.new RT_SEM_VALUE_MAX
  rtSemTake s timeout := countingTake RT_EOK (-RT_ETIMEOUT) (decide (timeout < 0)) s
  rtSemRelease := countingGive RT_EOK (-RT_EFULL)

theorem countingKernel_documented : countingKernel.Documented CountingSem.count where
  create tokens s h := by
    have hnew : CountingSem.new RT_SEM_VALUE_MAX tokens = some s := h
    rcases Nat.lt_or_ge RT_SEM_VALUE_MAX tokens with hlt | hle
    · rw [CountingSem.new_eq_none.mpr hlt] at hnew
      cases hnew
    · rw [CountingSem.new_of_le hle] at hnew
      cases hnew
      rfl
  calls := countingSem_countsTokens (by decide) (by decide)

end Poski.RtThread.Semaphore
