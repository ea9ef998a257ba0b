import Mathlib.Logic.Function.Basic
import Poski.Lib.Population
import Poski.Lib.RecLock
import Poski.Lib.TransitionSystem
import Poski.Posix.Native

/-!
# The Mutex Class

`OsMutex` of `OsMutex.h` over a recursive pthread mutex. The object counts in
`lock_depth_` how often it has been locked. `Lock` increments the depth after the native
mutex is locked, `Unlock` decrements it before the native mutex is unlocked and increments
it again if that fails.

## Main results

- `Inv` : the depth lags behind the native count by one for each call that stands between
  its two writes
- `destruct_eq_ok` : the loop of the destructor
-/

namespace Poski.Posix

open Lib

/-! ## The object -/

/-- `class OsMutex`: the native mutex and `lock_depth_`. -/
structure OsMutex (ι : Type) where
  mutex : RecLock ι
  lockDepth : UInt32

namespace OsMutex

variable {ι : Type}

/-- The constructor, run by `self`; `initErr` and `lockErr` are what the native calls
return. -/
def construct (b : Build) (initErr lockErr : PosError) (self : ι) (lockOnConstruction : Bool) :
    Except Halt (OsMutex ι) := do
  b.assert (initErr = .ok)
  if lockOnConstruction then
    b.assert (lockErr = .ok)
    pure { mutex := if lockErr = .ok then .held self 0 else .free, lockDepth := 1 }
  else
    pure { mutex := .free, lockDepth := 0 }

/-- An object whose native calls have succeeded starts with the depth of its mutex. -/
theorem lockDepth_of_construct {b : Build} {self : ι} {lockOnConstruction : Bool}
    {m : OsMutex ι} (h : construct b .ok .ok self lockOnConstruction = .ok m) :
    m.lockDepth.toNat = m.mutex.count ∧ m.mutex.count ≤ 1 := by
  unfold construct at h
  obtain ⟨_, _, h⟩ := bind_eq_ok.mp h
  cases lockOnConstruction with
  | false =>
    cases h
    exact ⟨rfl, Nat.zero_le 1⟩
  | true =>
    obtain ⟨_, _, h⟩ := bind_eq_ok.mp h
    cases h
    exact ⟨rfl, le_rfl⟩

variable [DecidableEq ι]

/-- `pos_mutex_unlock`: the code it returns, and the mutex it leaves. -/
def posMutexUnlock (l : RecLock ι) (t : ι) : PosError × RecLock ι :=
  match l.unlock t with
  | some l' => (mapPosixToOsalError .success, l')
  | none => (mapPosixToOsalError .EPERM, l)

theorem posMutexUnlock_eq_ok {l l' : RecLock ι} {t : ι} :
    posMutexUnlock l t = (.ok, l') ↔ l.unlock t = some l' := by
  unfold posMutexUnlock
  cases l.unlock t <;> simp [mapPosixToOsalError]

/-- An unlock that fails is one by a task that does not own the mutex, and changes
nothing. -/
theorem posMutexUnlock_fails {l l' : RecLock ι} {t : ι} {err : PosError}
    (h : posMutexUnlock l t = (err, l')) (herr : err ≠ .ok) : l.owner ≠ some t ∧ l' = l := by
  unfold posMutexUnlock at h
  cases hunlock : l.unlock t with
  | some _ =>
    rw [hunlock] at h
    exact absurd (Prod.mk.inj h).1.symm herr
  | none =>
    rw [hunlock] at h
    exact ⟨RecLock.unlock_eq_none.mp hunlock, (Prod.mk.inj h).2.symm⟩

/-- The destructor, run by `self`: `while (lock_depth_ > 0)`. -/
def destruct (b : Build) (self : ι) (m : OsMutex ι) : Except Halt (OsMutex ι) :=
  if 0 < m.lockDepth then do
    let r := posMutexUnlock m.mutex self
    b.assert (r.1 = .ok)
    destruct b self { mutex := r.2, lockDepth := m.lockDepth - 1 }
  else .ok m
termination_by m.lockDepth.toNat
decreasing_by
  simp only [UInt32.lt_iff_toNat_lt, UInt32.toNat_zero] at *
  have hone : (1 : UInt32) ≤ m.lockDepth := by
    rw [UInt32.le_iff_toNat_le]
    assumption
  rw [UInt32.toNat_sub_of_le _ _ hone, UInt32.toNat_one]
  omega

/-- **The destructor's loop**: it ends, no assertion of it fails, and it unlocks the mutex
as often as it has been locked. -/
theorem destruct_eq_ok (b : Build) (self : ι) {m : OsMutex ι}
    (hdepth : m.lockDepth.toNat = m.mutex.count)
    (howner : m.mutex = .free ∨ m.mutex.owner = some self) :
    m.destruct b self = .ok { mutex := .free, lockDepth := 0 } := by
  induction m using destruct.induct self with
  | case1 m hpos r ih =>
    rw [destruct, if_pos hpos]
    rw [UInt32.lt_iff_toNat_lt, UInt32.toNat_zero] at hpos
    -- the depth is positive, so the mutex is owned and the native unlock succeeds
    have howner' : m.mutex.owner = some self := by
      refine howner.resolve_left fun hfree => ?_
      rw [hfree, RecLock.count_free] at hdepth
      omega
    have hunlock : m.mutex.unlock self = some m.mutex.release := if_pos howner'
    obtain ⟨n, hheld, hcount, hafter⟩ := RecLock.unlock_eq_some.mp hunlock
    have hr : posMutexUnlock m.mutex self = (.ok, m.mutex.release) :=
      posMutexUnlock_eq_ok.mpr hunlock
    have hone : (1 : UInt32) ≤ m.lockDepth := UInt32.le_iff_toNat_le.mpr hpos
    simp only [r, hr] at ih
    simp only [hr, decide_true, Build.assert_true]
    refine ih ?_ hafter
    rw [UInt32.toNat_sub_of_le _ _ hone, hdepth, hcount, hheld]
    rfl
  | case2 m hzero =>
    have hdepth0 : m.lockDepth.toNat = 0 := by
      rw [UInt32.lt_iff_toNat_lt, UInt32.toNat_zero] at hzero
      omega
    rw [destruct, if_neg hzero]
    have hfree := RecLock.count_eq_zero.mp (hdepth.symm.trans hdepth0)
    obtain ⟨mutex, lockDepth⟩ := m
    have hlockDepth : lockDepth = 0 := UInt32.toNat_inj.mp hdepth0
    rw [hlockDepth, show mutex = .free from hfree]

/-! ## The machine -/

/-- Where a task stands in `Lock` or `Unlock`. A call of `Unlock` remembers whether its
caller owned the mutex. -/
inductive Pc where
  | idle
  | lock
  | increment
  | lockExit (err : PosError)
  | check (owns : Bool)
  | decrement (owns : Bool)
  | unlock (owns : Bool)
  | revert (owns : Bool) (err : PosError)
  | unlockExit (owns : Bool) (err : PosError)
  deriving DecidableEq, Repr

/-- What can happen in a step; `t` is the task it happens to. -/
inductive Act (ι : Type) where
  | callLock (t : ι)
  | lock (t : ι) (err : PosError)
  | increment (t : ι)
  | callUnlock (t : ι)
  | check (t : ι)
  | decrement (t : ι)
  | unlock (t : ι) (err : PosError)
  | revert (t : ι)
  | return (t : ι) (err : PosError)

/-- The task that a step happens to. -/
def Act.actor : Act ι → ι
  | .callLock t | .lock t _ | .increment t | .callUnlock t | .check t | .decrement t
  | .unlock t _ | .revert t | .return t _ => t

/-- The object, the tasks that use it, and whether a failed assertion has ended them all. -/
structure State (ι : Type) extends OsMutex ι where
  pc : ι → Pc
  aborted : Bool

/-- Task `t` goes to `p`. -/
def State.goto (s : State ι) (t : ι) (p : Pc) : State ι :=
  { s with pc := Function.update s.pc t p }

/-- One step of one task. The constructors follow the statements of the source. -/
inductive Step (b : Build) : State ι → Act ι → State ι → Prop where
  | callLock {s : State ι} {t : ι} (hpc : s.pc t = .idle) :
      Step b s (.callLock t) (s.goto t .lock)
  -- `err = pos_mutex_lock(&mutex_, timeout)`, granted
  | lock {s : State ι} {t : ι} {l : RecLock ι} (hpc : s.pc t = .lock)
      (hlock : s.mutex.lock mutexLimit t = some l) :
      Step b s (.lock t .ok) ({ s with mutex := l }.goto t .increment)
  -- or given up, at any time and with any code
  | lockFails {s : State ι} {t : ι} {err : PosError} (hpc : s.pc t = .lock) (herr : err ≠ .ok) :
      Step b s (.lock t err) (s.goto t (.lockExit err))
  -- `lock_depth_++`
  | increment {s : State ι} {t : ι} (hpc : s.pc t = .increment) :
      Step b s (.increment t)
        ({ s with lockDepth := s.lockDepth + 1 }.goto t (.lockExit .ok))
  | callUnlock {s : State ι} {t : ι} (hpc : s.pc t = .idle) :
      Step b s (.callUnlock t) (s.goto t (.check (decide (s.mutex.owner = some t))))
  -- `assert(lock_depth_ > 0)`
  | check {s : State ι} {t : ι} {owns : Bool} (hpc : s.pc t = .check owns)
      (hassert : b.assert (0 < s.lockDepth) = .ok ()) :
      Step b s (.check t) (s.goto t (.decrement owns))
  | checkFails {s : State ι} {t : ι} {owns : Bool} (hpc : s.pc t = .check owns)
      (hassert : b.assert (0 < s.lockDepth) = .error .assertion) :
      Step b s (.check t) { s with aborted := true }
  -- `lock_depth_--`
  | decrement {s : State ι} {t : ι} {owns : Bool} (hpc : s.pc t = .decrement owns) :
      Step b s (.decrement t)
        ({ s with lockDepth := s.lockDepth - 1 }.goto t (.unlock owns))
  -- `err = pos_mutex_unlock(&mutex_)`
  | unlock {s : State ι} {t : ι} {owns : Bool} {l : RecLock ι} (hpc : s.pc t = .unlock owns)
      (hunlock : posMutexUnlock s.mutex t = (.ok, l)) :
      Step b s (.unlock t .ok) ({ s with mutex := l }.goto t (.unlockExit owns .ok))
  | unlockFails {s : State ι} {t : ι} {owns : Bool} {l : RecLock ι} {err : PosError}
      (hpc : s.pc t = .unlock owns) (hunlock : posMutexUnlock s.mutex t = (err, l))
      (herr : err ≠ .ok) :
      Step b s (.unlock t err) ({ s with mutex := l }.goto t (.revert owns err))
  -- `lock_depth_++`
  | revert {s : State ι} {t : ι} {owns : Bool} {err : PosError} (hpc : s.pc t = .revert owns err) :
      Step b s (.revert t)
        ({ s with lockDepth := s.lockDepth + 1 }.goto t (.unlockExit owns err))
  -- `return err`
  | returnLock {s : State ι} {t : ι} {err : PosError} (hpc : s.pc t = .lockExit err) :
      Step b s (.return t err) (s.goto t .idle)
  | returnUnlock {s : State ι} {t : ι} {owns : Bool} {err : PosError}
      (hpc : s.pc t = .unlockExit owns err) : Step b s (.return t err) (s.goto t .idle)

/-- A constructed object whose native calls have succeeded, and that nobody has used yet.
Nothing runs any more after a failed assertion. -/
def osMutex (b : Build) (ι : Type) [DecidableEq ι] : TransitionSystem (State ι) (Act ι) where
  init s := (∃ self lockOnConstruction,
      construct b .ok .ok self lockOnConstruction = .ok s.toOsMutex) ∧
    (∀ t, s.pc t = .idle) ∧ s.aborted = false
  step s a s' := s.aborted = false ∧ Step b s a s'

/-! ## Depth and count -/

/-- The call stands between its two writes: the native mutex counts one more than the depth
on its behalf. -/
def Pc.ahead : Pc → Bool
  | .increment | .unlock _ | .revert _ _ => true
  | _ => false

/-- Whether the task owns the mutex, where its place tells. -/
def Pc.owns : Pc → Option Bool
  | .increment => some true
  | .check owns | .decrement owns | .unlock owns => some owns
  | _ => none

/-- The task is in an `Unlock` of a mutex that it does not own. -/
def Pc.foreign : Pc → Bool
  | .check owns | .decrement owns | .unlock owns | .revert owns _ | .unlockExit owns _ => !owns
  | _ => false

/-- An `Unlock` fails exactly if its caller did not own the mutex. -/
def Pc.Consistent : Pc → Prop
  | .revert owns err => owns = false ∧ err ≠ .ok
  | .unlockExit owns err => err = .ok ↔ owns = true
  | _ => True

/-- The invariant of the object and its tasks. -/
structure Inv (s : State ι) : Prop where
  finite : (members Pc.ahead s.pc).Finite
  balance : (s.lockDepth.toNat + population Pc.ahead s.pc) % 2 ^ 32 = s.mutex.count % 2 ^ 32
  count_lt : s.mutex.count < 2 ^ 32
  owns : ∀ t owns, (s.pc t).owns = some owns → (owns = true ↔ s.mutex.owner = some t)
  consistent : ∀ t, (s.pc t).Consistent

variable {b : Build} {s s' : State ι} {a : Act ι}

/-- Only the actor of a step moves. -/
theorem Step.pc_eq (h : Step b s a s') :
    s'.pc = Function.update s.pc a.actor (s'.pc a.actor) := by
  cases h <;> simp [State.goto, Act.actor]

/-- What a step adds to the count it adds to the depth, unless its actor gets ahead. -/
theorem Step.balance (h : Step b s a s') :
    (s'.lockDepth.toNat + (s'.pc a.actor).ahead.toNat + s.mutex.count) % 2 ^ 32 =
      (s.lockDepth.toNat + (s.pc a.actor).ahead.toNat + s'.mutex.count) % 2 ^ 32 := by
  cases h
  case lock t l hpc hlock =>
    obtain ⟨-, -, rfl⟩ := RecLock.lock_eq_some.mp hlock
    simp [State.goto, Act.actor, hpc, Pc.ahead]
    omega
  case unlock t owns l hpc hunlock =>
    obtain ⟨n, hheld, hcount, -⟩ := RecLock.unlock_eq_some.mp (posMutexUnlock_eq_ok.mp hunlock)
    simp [State.goto, Act.actor, hpc, Pc.ahead, hheld, hcount]
    omega
  case unlockFails t owns l err hpc hunlock herr =>
    obtain ⟨-, rfl⟩ := posMutexUnlock_fails hunlock herr
    simp [State.goto, Act.actor, hpc, Pc.ahead]
  -- the writes to the depth
  case increment | revert => simp [State.goto, Act.actor, Pc.ahead, UInt32.toNat_add, *]
  case decrement =>
    simp [State.goto, Act.actor, Pc.ahead, UInt32.toNat_sub, *]
    omega
  all_goals simp [State.goto, Act.actor, Pc.ahead, *]

/-- Nobody but the actor of a step comes or ceases to own the mutex. -/
theorem Step.owner_of_ne (h : Step b s a s') {u : ι} (hu : u ≠ a.actor) :
    s'.mutex.owner = some u ↔ s.mutex.owner = some u := by
  cases h
  case lock hlock => exact RecLock.owner_lock_of_ne hlock hu
  case unlock hunlock => exact RecLock.owner_unlock_of_ne (posMutexUnlock_eq_ok.mp hunlock) hu
  case unlockFails hunlock herr =>
    obtain ⟨-, rfl⟩ := posMutexUnlock_fails hunlock herr
    exact Iff.rfl
  all_goals exact Iff.rfl

/-- What the actor's place tells about the owner stays true. -/
theorem Step.owns_actor (h : Step b s a s')
    (hbefore : ∀ owns, (s.pc a.actor).owns = some owns →
      (owns = true ↔ s.mutex.owner = some a.actor)) :
    ∀ owns, (s'.pc a.actor).owns = some owns →
      (owns = true ↔ s'.mutex.owner = some a.actor) := by
  cases h
  case lock t l hpc hlock =>
    obtain ⟨-, -, rfl⟩ := RecLock.lock_eq_some.mp hlock
    simp [State.goto, Act.actor, Pc.owns]
  case callUnlock t hpc => simp [State.goto, Act.actor, Pc.owns]
  case check t owns hpc hassert =>
    simpa [State.goto, Act.actor, Pc.owns, hpc] using hbefore
  case checkFails => exact hbefore
  case decrement t owns hpc =>
    simpa [State.goto, Act.actor, Pc.owns, hpc] using hbefore
  all_goals simp [State.goto, Act.actor, Pc.owns]

/-- An `Unlock` learns from the native mutex what it remembers of its caller. -/
theorem Step.consistent_actor (h : Step b s a s') (hinv : Inv s) :
    (s'.pc a.actor).Consistent := by
  cases h
  case unlock t owns l hpc hunlock =>
    obtain ⟨n, hheld, -, -⟩ := RecLock.unlock_eq_some.mp (posMutexUnlock_eq_ok.mp hunlock)
    have howns : owns = true := by
      rw [hinv.owns t owns (by rw [hpc]; rfl), hheld, RecLock.owner_held]
    simp [State.goto, Act.actor, Pc.Consistent, howns]
  case unlockFails t owns l err hpc hunlock herr =>
    have hforeign : ¬s.mutex.owner = some t := (posMutexUnlock_fails hunlock herr).1
    rw [← hinv.owns t owns (by rw [hpc]; rfl), Bool.not_eq_true] at hforeign
    simp [State.goto, Act.actor, Pc.Consistent, hforeign, herr]
  case revert t owns err hpc =>
    have hfailed := hinv.consistent t
    rw [hpc] at hfailed
    simp [State.goto, Act.actor, Pc.Consistent, hfailed.1, hfailed.2]
  case checkFails t owns hpc hassert =>
    exact hinv.consistent t
  all_goals simp [State.goto, Act.actor, Pc.Consistent]

theorem Step.count_lt (h : Step b s a s') (hlt : s.mutex.count < 2 ^ 32) :
    s'.mutex.count < 2 ^ 32 := by
  cases h
  case lock t l hpc hlock =>
    obtain ⟨-, hlimit, rfl⟩ := RecLock.lock_eq_some.mp hlock
    rw [mutexLimit] at hlimit
    show s.mutex.count + 1 < 2 ^ 32
    omega
  case unlock t owns l hpc hunlock =>
    obtain ⟨n, hheld, hcount, -⟩ := RecLock.unlock_eq_some.mp (posMutexUnlock_eq_ok.mp hunlock)
    rw [hheld, RecLock.count_held] at hlt
    show l.count < 2 ^ 32
    omega
  case unlockFails hunlock herr =>
    obtain ⟨-, rfl⟩ := posMutexUnlock_fails hunlock herr
    exact hlt
  all_goals exact hlt

theorem Inv.start (hinit : (osMutex b ι).init s) : Inv s := by
  obtain ⟨⟨self, lockOnConstruction, hconstruct⟩, hidle, -⟩ := hinit
  obtain ⟨hdepth, hcount⟩ := lockDepth_of_construct hconstruct
  have hnone : members Pc.ahead s.pc = ∅ := by
    simp [members, hidle, Pc.ahead]
  refine ⟨by simp [hnone], ?_, by omega, ?_, ?_⟩
  · rw [population, hnone, Set.ncard_empty, Nat.add_zero, hdepth]
  · simp [hidle, Pc.owns]
  · simp [hidle, Pc.Consistent]

theorem Inv.step (hinv : Inv s) (h : Step b s a s') : Inv s' := by
  refine ⟨?_, ?_, h.count_lt hinv.count_lt, fun u owns hu => ?_, fun u => ?_⟩
  · rw [h.pc_eq]
    exact finite_members_update hinv.finite _ _
  · -- the population moves as the place of the actor does
    have hmove := population_update hinv.finite a.actor (s'.pc a.actor)
    rw [← h.pc_eq] at hmove
    have hlocal := h.balance
    have hbalance := hinv.balance
    omega
  · rcases eq_or_ne u a.actor with rfl | hne
    · exact h.owns_actor (hinv.owns _) owns hu
    · rw [h.pc_eq, Function.update_of_ne hne] at hu
      rw [h.owner_of_ne hne]
      exact hinv.owns u owns hu
  · rcases eq_or_ne u a.actor with rfl | hne
    · exact h.consistent_actor hinv
    · rw [h.pc_eq, Function.update_of_ne hne]
      exact hinv.consistent u

omit [DecidableEq ι] in
/-- While no call stands between its two writes, the depth is the native count. -/
theorem Inv.depth_eq_count (hinv : Inv s) (hnone : ∀ t, (s.pc t).ahead = false) :
    s.lockDepth.toNat = s.mutex.count := by
  have hbalance := hinv.balance
  rw [(population_eq_zero hinv.finite).mpr hnone, Nat.add_zero, Nat.mod_eq_of_lt hinv.count_lt,
    Nat.mod_eq_of_lt s.lockDepth.toNat_lt] at hbalance
  exact hbalance

end OsMutex

end Poski.Posix
