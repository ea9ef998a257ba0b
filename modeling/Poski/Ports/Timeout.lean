import Mathlib.Algebra.Order.Field.Rat
import Mathlib.Algebra.Order.Ring.Abs
import Mathlib.Tactic.Linarith
import Poski.FreeRtos.Blocking
import Poski.RtThread.Blocking

/-!
# Timeouts in Milliseconds

The headers say that the timeout of `pos_mutex_lock`, `pos_sem_take` and `pos_queue_get` is
in milliseconds. The Zephyr port converts it with `K_MSEC`. The FreeRTOS and the RT-Thread
port hand it to the native call, which takes it for a number of ticks.

- `timeout_in_ticks` : at a tick rate of 100 a timeout of a second is ten
- `means_milliseconds_iff` : when a number of ticks is as good as that of milliseconds
-/

namespace Poski.Ports

/-- The functions that take a timeout. -/
inductive BlockingFn where
  | freeRtosMutexLock
  | freeRtosSemTake
  | freeRtosQueueGet
  | rtThreadMutexLock
  | rtThreadSemTake
  | rtThreadQueueGet
  deriving DecidableEq, Repr

/-- The ticks that the native call of a function is handed, if the function gets there. -/
def ticksOf {Ret : Type} : Except Halt (PosError ⊕ NativeCall Ret) → Option ℤ
  | .ok (.inr call) => some call.ticks
  | _ => none

/-- The ticks that a function's native call is handed, in a task and for a valid object. -/
def BlockingFn.ticks (b : Build) (timeout : UInt32) : BlockingFn → Option ℤ
  | freeRtosMutexLock => ticksOf (FreeRtos.Blocking.posMutexLock b false .inited timeout)
  | freeRtosSemTake => ticksOf (FreeRtos.Blocking.posSemTake b .inited timeout)
  | freeRtosQueueGet => ticksOf (FreeRtos.Blocking.posQueueGet b .inited timeout)
  | rtThreadMutexLock => ticksOf (RtThread.posMutexLock b .inited timeout)
  | rtThreadSemTake => ticksOf (RtThread.posSemTake b .inited timeout)
  | rtThreadQueueGet => ticksOf (RtThread.posQueueGet b .inited timeout)

/-- `K_MSEC(timeout)`, in ticks: rounded up. -/
def kMsecTicks (rate : ℕ) (timeout : UInt32) : ℤ := ((timeout.toNat * rate + 999) / 1000 : ℕ)

/-- At `rate` ticks a second, so many ticks are as many milliseconds as the timeout says, up
to one tick. -/
def WithinOneTick (rate : ℕ) (timeout : UInt32) (ticks : ℤ) : Prop :=
  |(ticks : ℚ) - timeout.toNat * rate / 1000| ≤ 1

variable {rate : ℕ} {timeout : UInt32} {ticks : ℤ}

/-- In thousandths of a tick. -/
theorem withinOneTick_iff : WithinOneTick rate timeout ticks ↔
    (timeout.toNat : ℤ) * rate - 1000 ≤ 1000 * ticks ∧
      1000 * ticks ≤ (timeout.toNat : ℤ) * rate + 1000 := by
  rw [WithinOneTick, abs_le]
  have hleft : (-1 : ℚ) ≤ ticks - timeout.toNat * rate / 1000 ↔
      (timeout.toNat : ℤ) * rate - 1000 ≤ 1000 * ticks := by
    rw [← @Int.cast_le ℚ]
    push_cast
    constructor <;> intro h <;> linarith
  have hright : (ticks : ℚ) - timeout.toNat * rate / 1000 ≤ 1 ↔
      1000 * ticks ≤ (timeout.toNat : ℤ) * rate + 1000 := by
    rw [← @Int.cast_le ℚ]
    push_cast
    constructor <;> intro h <;> linarith
  rw [hleft, hright]

/-- **Zephyr** waits as long as it is told to. -/
theorem kMsec_withinOneTick (rate : ℕ) (timeout : UInt32) :
    WithinOneTick rate timeout (kMsecTicks rate timeout) := by
  rw [withinOneTick_iff, kMsecTicks]
  have hproduct : (timeout.toNat : ℤ) * rate = (timeout.toNat * rate : ℕ) := by push_cast; rfl
  omega

/-! ## The other two ports -/

/-- The FreeRTOS port hands the milliseconds over as they are. -/
def BlockingFn.isFreeRtos : BlockingFn → Bool
  | freeRtosMutexLock | freeRtosSemTake | freeRtosQueueGet => true
  | rtThreadMutexLock | rtThreadSemTake | rtThreadQueueGet => false

/-- Both ports hand over the milliseconds, the RT-Thread port as a signed number. -/
theorem ticks_eq (b : Build) (fn : BlockingFn) (timeout : UInt32) :
    fn.ticks b timeout =
      some (if fn.isFreeRtos then (timeout.toNat : ℤ) else timeout.toInt32.toInt) := by
  cases fn <;>
    simp [BlockingFn.ticks, BlockingFn.isFreeRtos, ticksOf, FreeRtos.Blocking.posMutexLock,
      FreeRtos.Blocking.posSemTake, FreeRtos.Blocking.posQueueGet, RtThread.posMutexLock,
      RtThread.posSemTake, RtThread.posQueueGet, ObjectPtr.inited, blockOn, bind, Except.bind,
      pure, Except.pure]

/-- A timeout from `2 ^ 31` on is negative for RT-Thread. -/
theorem toInt_toInt32 (timeout : UInt32) :
    timeout.toInt32.toInt =
      if timeout.toNat < 2147483648 then (timeout.toNat : ℤ) else timeout.toNat - 4294967296 := by
  have hlt := timeout.toNat_lt
  have hbmod : timeout.toInt32.toInt = (timeout.toNat : ℤ).bmod 4294967296 :=
    BitVec.toInt_eq_toNat_bmod _
  rw [hbmod, Int.bmod_def]
  split <;> split <;> omega

/-- The ticks are the milliseconds, and as good as them, exactly if the rate is close enough
to 1000 for the timeout. -/
theorem raw_withinOneTick_iff : WithinOneTick rate timeout timeout.toNat ↔
    (timeout.toNat : ℤ) * |(rate : ℤ) - 1000| ≤ 1000 := by
  rw [withinOneTick_iff, ← abs_of_nonneg (Int.natCast_nonneg timeout.toNat), ← abs_mul, abs_le,
    abs_of_nonneg (Int.natCast_nonneg timeout.toNat), mul_sub]
  constructor <;> rintro ⟨h₁, h₂⟩ <;> constructor <;> linarith

/-- A negative number of ticks is no number of milliseconds. -/
theorem negative_not_within (hfinite : timeout ≠ 0xFFFFFFFF) :
    ¬WithinOneTick rate timeout (timeout.toNat - 4294967296) := by
  have hlt := timeout.toNat_lt
  have hne : timeout.toNat ≠ 4294967295 := fun h => hfinite (UInt32.toNat_inj.mp h)
  have hpos : (0 : ℤ) ≤ timeout.toNat * rate := by positivity
  rw [withinOneTick_iff]
  omega

/-- A timeout as large as that has a rate below 1000 to be within range. -/
theorem not_close_of_large (hlarge : 2147483648 ≤ timeout.toNat)
    (hrange : timeout.toNat * rate < 1000 * 2147483648) :
    ¬(timeout.toNat : ℤ) * |(rate : ℤ) - 1000| ≤ 1000 := by
  have hrate : rate < 1000 := by
    by_contra hge
    have hproduct := Nat.mul_le_mul hlarge (Nat.not_lt.mp hge)
    omega
  have habs : 1 ≤ |(rate : ℤ) - 1000| := Int.one_le_abs (by omega)
  have hlarge' : (2147483648 : ℤ) ≤ timeout.toNat := by exact_mod_cast hlarge
  intro hclose
  have hproduct := mul_le_mul hlarge' habs zero_le_one (by positivity)
  omega

/-- At a rate of 100 ticks a second, a second is a hundred ticks, and not a thousand. -/
theorem timeout_in_ticks :
    ¬∀ (b : Build) (fn : BlockingFn) (rate : ℕ) (timeout : UInt32), 1 ≤ rate → timeout ≠ 0 →
      timeout ≠ 0xFFFFFFFF → timeout.toNat * rate < 1000 * 2147483648 →
        ∃ ticks, fn.ticks b timeout = some ticks ∧ WithinOneTick rate timeout ticks := by
  intro halways
  obtain ⟨ticks, hticks, hwithin⟩ :=
    halways ⟨false⟩ .freeRtosMutexLock 100 1000 (by simp) (by simp) (by simp) (by simp)
  have hraw : ticks = 1000 := by simpa [ticks_eq, BlockingFn.isFreeRtos, eq_comm] using hticks
  rw [withinOneTick_iff, hraw] at hwithin
  have hthousand : (1000 : UInt32).toNat = 1000 := rfl
  omega

/-- **The timeout means milliseconds exactly if** the rate is 1000 ticks a second, or so close
to it that it makes no more than one tick of a difference; that is so of each of the six
functions, and of the Zephyr port always. -/
theorem means_milliseconds_iff (b : Build) (fn : BlockingFn) (hfinite : timeout ≠ 0xFFFFFFFF)
    (hrange : timeout.toNat * rate < 1000 * 2147483648) :
    WithinOneTick rate timeout (kMsecTicks rate timeout) ∧
    ((∃ ticks, fn.ticks b timeout = some ticks ∧ WithinOneTick rate timeout ticks) ↔
      (timeout.toNat : ℤ) * |(rate : ℤ) - 1000| ≤ 1000) := by
  refine ⟨kMsec_withinOneTick rate timeout, ?_⟩
  simp only [ticks_eq, Option.some_inj, exists_eq_left', toInt_toInt32]
  by_cases hraw : fn.isFreeRtos = true ∨ timeout.toNat < 2147483648
  · have hticks : (if fn.isFreeRtos = true then (timeout.toNat : ℤ) else
        if timeout.toNat < 2147483648 then (timeout.toNat : ℤ) else timeout.toNat - 4294967296) =
        timeout.toNat := by
      rcases hraw with hraw | hraw <;> simp [hraw]
    rw [hticks]
    exact raw_withinOneTick_iff
  · -- the RT-Thread port, and a timeout that is negative there
    rw [not_or, Nat.not_lt] at hraw
    obtain ⟨hfn, hlarge⟩ := hraw
    rw [if_neg hfn, if_neg (Nat.not_lt.mpr hlarge)]
    exact iff_of_false (negative_not_within hfinite) (not_close_of_large hlarge hrange)

/-- At 1024 ticks a second a timeout of 40 milliseconds is taken for 40 ticks, which are a
little less. -/
theorem means_milliseconds_close :
    WithinOneTick 1024 40 (kMsecTicks 1024 40) ∧
      ∃ ticks, BlockingFn.rtThreadSemTake.ticks ⟨true⟩ 40 = some ticks ∧
        WithinOneTick 1024 40 ticks := by
  have hrange : (40 : UInt32).toNat * 1024 < 1000 * 2147483648 := by simp
  obtain ⟨hzephyr, hclose⟩ :=
    means_milliseconds_iff ⟨true⟩ .rtThreadSemTake (by simp : (40 : UInt32) ≠ 0xFFFFFFFF) hrange
  refine ⟨hzephyr, hclose.mpr ?_⟩
  simp

end Poski.Ports
