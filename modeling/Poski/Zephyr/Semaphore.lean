import Poski.Osal.NativeSemaphore
import Poski.Zephyr.Queue

/-!
# The Zephyr Semaphore

`os_sem.c` of the Zephyr port, each call executed as a whole. `K_SEM_MAX_LIMIT` is a
parameter. A take that may not wait finds the semaphore unavailable with `-EBUSY`, and one
that has waited in vain with `-EAGAIN`; the port knows the second code only.

- `KSem.Documented` : what is relied on
-/

namespace Poski.Zephyr

open Lib

def EBUSY : Int := 16

def POS_TIME_FOREVER : UInt32 := 0xFFFFFFFF

def POS_TIME_NO_WAIT : UInt32 := 0

/-! ## The native semaphore -/

/-- The native calls, on a semaphore `S`. `k_sem_init` is given the tokens and a limit; `none` is
a semaphore that it refuses to initialise. `k_sem_give` returns nothing. -/
structure KSem (S : Type) where
  init : ℕ → ℕ → Option S
  take : S → KTimeout → Except Halt (S × Int)
  give : S → S

variable {S : Type}

/-- The documented behaviour of semaphores with a limit, as far as they are used without waiting. A
give at the limit does nothing. -/
structure KSem.Documented (kernel : KSem S) (count : S → ℕ) (limit : ℕ) : Prop where
  init : ∀ tokens, 0 < limit → tokens ≤ limit →
    ∃ s, kernel.init tokens limit = some s ∧ count s = tokens
  calls : CountsTokens (fun s => kernel.take s .noWait) (fun s => (kernel.give s, 0)) count limit 0
    (· = -EBUSY) (fun _ => True)

/-! ## os_sem.c -/

variable (kernel : KSem S)

/-- `pos_sem_init`; what `k_sem_init` returns is not looked at. -/
def posSemInit (K_SEM_MAX_LIMIT : ℕ) (tokens : UInt16) : Option S × PosError :=
  (kernel.init tokens.toNat K_SEM_MAX_LIMIT, .ok)

/-- `pos_sem_take`. -/
def posSemTake (sem : S) (timeout : UInt32) : Except Halt (S × PosError) := do
  let tmo : KTimeout :=
    if timeout = POS_TIME_FOREVER then .forever
    else if timeout = POS_TIME_NO_WAIT then .noWait
    else .msec timeout
  let (sem, err) ← kernel.take sem tmo
  if err = 0 then
    return (sem, .ok)
  else if err = -EAGAIN then
    return (sem, .timeout)
  else
    return (sem, .error)

/-- `pos_sem_give`. -/
def posSemGive (sem : S) : S × PosError :=
  (kernel.give sem, .ok)

/-! ## What the calls do -/

variable {kernel} {sem sem' : S} {count : S → ℕ} {limit : ℕ}

/-- What a take that may not wait does. -/
theorem posSemTake_noWait {err : Int} (h : kernel.take sem .noWait = .ok (sem', err)) :
    posSemTake kernel sem POS_TIME_NO_WAIT =
      .ok (sem', if err = 0 then .ok else if err = -EAGAIN then .timeout else .error) := by
  have htmo : POS_TIME_NO_WAIT ≠ POS_TIME_FOREVER := by decide
  simp only [posSemTake, htmo, if_false, if_true, h, bind, Except.bind, pure, Except.pure]
  split_ifs <;> rfl

section Documented

variable (hdoc : kernel.Documented count limit)
include hdoc

theorem posSemInit_of_le {tokens : UInt16} (hpos : 0 < limit) (hle : tokens.toNat ≤ limit) :
    ∃ sem, posSemInit kernel limit tokens = (some sem, .ok) ∧ count sem = tokens.toNat := by
  obtain ⟨sem, hinit, hcount⟩ := hdoc.init tokens.toNat hpos hle
  exact ⟨sem, by rw [posSemInit, hinit], hcount⟩

theorem posSemTake_pos (hpos : 0 < count sem) :
    ∃ sem', posSemTake kernel sem POS_TIME_NO_WAIT = .ok (sem', .ok) ∧
      count sem = count sem' + 1 := by
  obtain ⟨sem', htake, hcount⟩ := hdoc.calls.take_pos sem hpos
  exact ⟨sem', posSemTake_noWait htake, hcount⟩

/-- An unavailable semaphore is reported as an error, not as a timeout. -/
theorem posSemTake_zero (hzero : count sem = 0) :
    ∃ sem', posSemTake kernel sem POS_TIME_NO_WAIT = .ok (sem', .error) ∧ count sem' = 0 := by
  obtain ⟨sem', err, htake, rfl, hcount⟩ := hdoc.calls.take_zero sem hzero
  -- `-EBUSY` is neither 0 nor `-EAGAIN`
  exact ⟨sem', posSemTake_noWait htake, hcount⟩

theorem posSemGive_lt (hlt : count sem < limit) :
    ∃ sem', posSemGive kernel sem = (sem', .ok) ∧ count sem' = count sem + 1 := by
  obtain ⟨sem', hgive, hcount⟩ := hdoc.calls.give_lt sem hlt
  exact ⟨sem', congrArg (·, PosError.ok) (Prod.mk.inj hgive).1, hcount⟩

/-- A give at the limit is lost, and not reported. -/
theorem posSemGive_max (hmax : limit ≤ count sem) :
    ∃ sem', posSemGive kernel sem = (sem', .ok) ∧ count sem' = count sem := by
  obtain ⟨sem', _, hgive, _, hcount⟩ := hdoc.calls.give_max sem hmax
  exact ⟨sem', congrArg (·, PosError.ok) (Prod.mk.inj hgive).1, hcount⟩

end Documented

/-! ## A kernel -/

/-- A kernel that counts, up to the limit. -/
def countingKSem (limit : ℕ) : KSem (CountingSem limit) where
  init tokens limit' := if limit' = limit then CountingSem.new limit tokens else none
  take s tmo :=
    countingTake 0 (if tmo = .noWait then -EBUSY else -EAGAIN) (decide (tmo = .forever)) s
  give s := (countingGive () () s).1

theorem countingKSem_documented (limit : ℕ) :
    (countingKSem limit).Documented CountingSem.count limit where
  init tokens _ hle := ⟨⟨tokens, hle⟩, (if_pos rfl).trans (CountingSem.new_of_le hle), rfl⟩
  calls := by
    have hcounts : CountsTokens (countingTake (0 : Int) (-EBUSY) false) (countingGive 0 0)
        (CountingSem.count : CountingSem limit → ℕ) limit 0 (· = -EBUSY) (fun _ => True) :=
      countingSem_countsTokens rfl trivial
    have hgive : (fun s => ((countingKSem limit).give s, (0 : Int))) = countingGive 0 0 := by
      funext s
      simp only [countingKSem, countingGive]
      cases s.give <;> rfl
    rw [hgive]
    exact hcounts

end Poski.Zephyr
