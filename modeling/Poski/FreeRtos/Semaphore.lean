import Poski.FreeRtos.Queue
import Poski.Osal.NativeSemaphore

/-!
# The FreeRTOS Semaphore

`os_sem.c` of the FreeRTOS port, each call executed as a whole, and its pointer argument not
`NULL`. A counting semaphore of the kernel has a maximum, which is 128 here, and refuses to
be created or given beyond it; the port asserts that it never does.

- `SemaphoreKernel.Documented` : what is relied on
-/

namespace Poski.FreeRtos

open Lib

/-! ## The native semaphore -/

/-- The native calls, on a semaphore `S`. -/
structure SemaphoreKernel (S : Type) where
  xSemaphoreCreateCounting : ℕ → ℕ → Option S
  xSemaphoreTake : S → UInt32 → Except Halt (S × BaseType)
  xSemaphoreTakeFromISR : S → S × BaseType
  xSemaphoreGive : S → S × BaseType
  xSemaphoreGiveFromISR : S → S × BaseType

variable {S : Type}

/-- The documented behaviour of semaphores that are created with the maximum `max`, as far as they
are used by tasks that do not wait. -/
structure SemaphoreKernel.Documented (kernel : SemaphoreKernel S) (count : S → ℕ) (max : ℕ) :
    Prop where
  create : ∀ tokens s, kernel.xSemaphoreCreateCounting max tokens = some s → count s = tokens
  create_refused : ∀ tokens, max < tokens → kernel.xSemaphoreCreateCounting max tokens = none
  calls : CountsTokens (fun s => kernel.xSemaphoreTake s 0) kernel.xSemaphoreGive count max pdPASS
    (· ≠ pdPASS) (· ≠ pdPASS)

/-- There is memory for every semaphore that is not refused. -/
def SemaphoreKernel.HasMemory (kernel : SemaphoreKernel S) (max : ℕ) : Prop :=
  ∀ tokens, tokens ≤ max → ∃ s, kernel.xSemaphoreCreateCounting max tokens = some s

/-! ## os_sem.c -/

/-- `struct pos_sem`: the handle of a native semaphore, or `NULL`. -/
structure PosSem (S : Type) where
  handle : Option S

variable (kernel : SemaphoreKernel S) (b : Build)

/-- `pos_sem_init`. -/
def posSemInit (tokens : UInt16) : Except Halt (PosSem S × PosError) := do
  -- a `NULL` is stored, and only the assertion looks at it
  let sem : PosSem S := { handle := kernel.xSemaphoreCreateCounting 128 tokens.toNat }
  b.assert sem.handle.isSome
  return (sem, .ok)

/-- `pos_sem_take`; `inIsr` is `pos_hw_in_isr()`. -/
def posSemTake (inIsr : Bool) (sem : PosSem S) (timeout : UInt32) :
    Except Halt (PosSem S × PosError) := do
  b.assert sem.handle.isSome
  match sem.handle with
  | none => .error .nullDeref
  | some handle =>
    if inIsr then
      -- an interrupt handler does not wait
      b.assert (timeout = 0)
      let (handle, ret) := kernel.xSemaphoreTakeFromISR handle
      return ({ handle := some handle }, if ret = pdPASS then .ok else .timeout)
    else
      let (handle, ret) ← kernel.xSemaphoreTake handle timeout
      return ({ handle := some handle }, if ret = pdPASS then .ok else .timeout)

/-- `pos_sem_give`. -/
def posSemGive (inIsr : Bool) (sem : PosSem S) : Except Halt (PosSem S × PosError) := do
  b.assert sem.handle.isSome
  match sem.handle with
  | none => .error .nullDeref
  | some handle =>
    let (handle, ret) :=
      if inIsr then kernel.xSemaphoreGiveFromISR handle else kernel.xSemaphoreGive handle
    b.assert (ret = pdPASS)
    return ({ handle := some handle }, .ok)

/-! ## What the calls do -/

variable {kernel b} {handle handle' : S} {ret : BaseType}

theorem posSemTake_of_take {timeout : UInt32}
    (h : kernel.xSemaphoreTake handle timeout = .ok (handle', ret)) :
    posSemTake kernel b false { handle := some handle } timeout =
      .ok ({ handle := some handle' }, if ret = pdPASS then .ok else .timeout) := by
  simp [posSemTake, h, bind, Except.bind, pure, Except.pure]

/-- A give that is refused is noticed by an assertion only. -/
theorem posSemGive_of_give (h : kernel.xSemaphoreGive handle = (handle', ret)) :
    posSemGive kernel b false { handle := some handle } =
      if ret = pdPASS ∨ b.ndebug = true then .ok ({ handle := some handle' }, .ok)
      else .error .assertion := by
  cases hn : b.ndebug <;> by_cases hret : ret = pdPASS <;>
    simp [posSemGive, h, hret, Build.assert, hn, bind, Except.bind, pure, Except.pure]

/-- A call that dereferences a null handle. -/
theorem posSemTake_null (kernel : SemaphoreKernel S) (hndebug : b.ndebug = true)
    (timeout : UInt32) :
    posSemTake kernel b false { handle := none } timeout = .error .nullDeref := by
  simp [posSemTake, Build.assert, hndebug, bind, Except.bind]

theorem posSemGive_null (kernel : SemaphoreKernel S) (hndebug : b.ndebug = true) :
    posSemGive kernel b false { handle := none } = .error .nullDeref := by
  simp [posSemGive, Build.assert, hndebug, bind, Except.bind]

section Documented

variable {count : S → ℕ} (hdoc : kernel.Documented count 128)
include hdoc

theorem posSemInit_of_le (hmemory : kernel.HasMemory 128) {tokens : UInt16}
    (hle : tokens.toNat ≤ 128) :
    ∃ handle, posSemInit kernel b tokens = .ok ({ handle := some handle }, .ok) ∧
      count handle = tokens.toNat := by
  obtain ⟨handle, hcreate⟩ := hmemory tokens.toNat hle
  refine ⟨handle, ?_, hdoc.create _ _ hcreate⟩
  simp [posSemInit, hcreate, bind, Except.bind, pure, Except.pure]

/-- Too many tokens are refused by the kernel. Without assertions that is not noticed. -/
theorem posSemInit_of_lt {tokens : UInt16} (hlt : 128 < tokens.toNat) :
    posSemInit kernel b tokens =
      if b.ndebug = true then .ok ({ handle := none }, .ok) else .error .assertion := by
  rw [posSemInit, hdoc.create_refused _ hlt]
  cases hn : b.ndebug <;> simp [Build.assert, hn, bind, Except.bind, pure, Except.pure]

theorem posSemTake_pos (hpos : 0 < count handle) :
    ∃ handle', posSemTake kernel b false { handle := some handle } 0 =
      .ok ({ handle := some handle' }, .ok) ∧ count handle = count handle' + 1 := by
  obtain ⟨handle', htake, hcount⟩ := hdoc.calls.take_pos handle hpos
  exact ⟨handle', posSemTake_of_take htake, hcount⟩

theorem posSemTake_zero (hzero : count handle = 0) :
    ∃ handle', posSemTake kernel b false { handle := some handle } 0 =
      .ok ({ handle := some handle' }, .timeout) ∧ count handle' = 0 := by
  obtain ⟨handle', ret, htake, hempty, hcount⟩ := hdoc.calls.take_zero handle hzero
  exact ⟨handle', (posSemTake_of_take htake).trans (by rw [if_neg hempty]), hcount⟩

theorem posSemGive_lt (hlt : count handle < 128) :
    ∃ handle', posSemGive kernel b false { handle := some handle } =
      .ok ({ handle := some handle' }, .ok) ∧ count handle' = count handle + 1 := by
  obtain ⟨handle', hgive, hcount⟩ := hdoc.calls.give_lt handle hlt
  exact ⟨handle', (posSemGive_of_give hgive).trans (if_pos (.inl rfl)), hcount⟩

/-- A give at the maximum is lost. Without assertions that is not noticed. -/
theorem posSemGive_max (hmax : 128 ≤ count handle) :
    ∃ handle', posSemGive kernel b false { handle := some handle } =
      (if b.ndebug = true then .ok ({ handle := some handle' }, .ok) else .error .assertion) ∧
      count handle' = count handle := by
  obtain ⟨handle', ret, hgive, hfull, hcount⟩ := hdoc.calls.give_max handle hmax
  refine ⟨handle', (posSemGive_of_give hgive).trans ?_, hcount⟩
  simp only [hfull, false_or]

end Documented

/-! ## A kernel -/

/-- A kernel that counts, up to 128. -/
def countingKernel : SemaphoreKernel (CountingSem 128) where
  xSemaphoreCreateCounting max tokens := if max = 128 then CountingSem.new 128 tokens else none
  xSemaphoreTake s timeout :=
    countingTake pdPASS errQUEUE_EMPTY (decide (timeout = portMAX_DELAY)) s
  xSemaphoreTakeFromISR s :=
    match s.take with
    | some s' => (s', pdPASS)
    | none => (s, errQUEUE_EMPTY)
  xSemaphoreGive := countingGive pdPASS errQUEUE_FULL
  xSemaphoreGiveFromISR := countingGive pdPASS errQUEUE_FULL

theorem countingKernel_create (tokens : ℕ) :
    countingKernel.xSemaphoreCreateCounting 128 tokens = CountingSem.new 128 tokens := rfl

theorem countingKernel_documented : countingKernel.Documented CountingSem.count 128 where
  create tokens s h := by
    rw [countingKernel_create] at h
    rcases Nat.lt_or_ge 128 tokens with hlt | hle
    · rw [CountingSem.new_eq_none.mpr hlt] at h
      cases h
    · rw [CountingSem.new_of_le hle] at h
      cases h
      rfl
  create_refused tokens hlt := by
    rw [countingKernel_create]
    exact CountingSem.new_eq_none.mpr hlt
  calls := countingSem_countsTokens (by decide) (by decide)

theorem countingKernel_hasMemory : countingKernel.HasMemory 128 := by
  intro tokens hle
  rw [countingKernel_create]
  exact ⟨_, CountingSem.new_of_le hle⟩

end Poski.FreeRtos
