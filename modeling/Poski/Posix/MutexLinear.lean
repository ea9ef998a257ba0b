import Poski.Posix.Mutex
import Poski.Posix.OsMutex
import Poski.Spec.Mutex

/-!
# The POSIX Mutexes Exclude

`pos_mutex_lock` and `pos_mutex_unlock`, and the methods of `OsMutex` over them, take effect in
one statement, the native call. What the other statements do, to the deadline in `mu->wait` or to
`lock_depth_`, can make an operation fail, but not succeed. So no two tasks are ever told that
they have the mutex, in any run of either machine: also if deadlines are overwritten, if locks
give up, if tasks unlock what they do not own and if the depth is wrong.

## Main results

- `Mutex.posMutex_excludes` : `pos_mutex_lock` and `pos_mutex_unlock`
- `OsMutex.osMutex_excludes` : `OsMutex::Lock` and `OsMutex::Unlock`
-/

namespace Poski.Posix

open Lib Spec

universe u

namespace Mutex

variable {ι : Type u} [DecidableEq ι] {s s' : State ι} {a : Act ι}

/-- The calls and replies among the steps. -/
def Act.seen : Act ι → Option (HistoryEvent ι MutexCall PosError)
  | .callLock t _ => some (.call t .lock)
  | .callUnlock t => some (.call t .unlock)
  | .return t err => some (.reply t err)
  | _ => none

/-- How far the operation of a task at this place is. -/
def Pc.phase : Pc → OpPhase MutexCall PosError
  | .idle => .idle
  | .lock | .clock _ | .addSec _ _ | .addNsec _ _ | .timedlock _ _ | .waiting _ => .called .lock
  | .unlock => .called .unlock
  | .exit ret => .done (mapPosixToOsalError ret)

/-- Every operation is where its task is. -/
def State.atomic (s : State ι) : AtomicState (RecLock ι) ι MutexCall PosError :=
  .ofPlaces Pc.phase s.lock s.pc

omit [DecidableEq ι] in
theorem mapPosixToOsalError_ne_ok {ret : Errno} (hret : ret ≠ .success) :
    mapPosixToOsalError ret ≠ .ok :=
  fun h => hret (mapPosixToOsalError_eq_ok.mp h)

/-- The operation of `t` takes effect, and `t` goes on to its return. -/
theorem atomicStep_effect {t : ι} {p : Pc} {c : MutexCall} {ret : Errno} {l : RecLock ι}
    (hpc : s.pc t = p) (hp : p.phase = .called c)
    (hstep : MutexStep mutexLimit s.lock ⟨t, c, mapPosixToOsalError ret⟩ l) :
    AtomicStep (recursiveMutex mutexLimit .free) s.atomic
      (.effect t c (mapPosixToOsalError ret)) ({ s with lock := l }.goto t (.exit ret)).atomic :=
  .effectPlace ((congrArg Pc.phase hpc).trans hp) hstep rfl

/-- A statement is a call, a reply, the effect of an operation, or nothing to be seen. -/
theorem Step.answer (h : Step s a s') :
    (a.seen = none ∧ s'.atomic = s.atomic) ∨
      ∃ e, AtomicStep (recursiveMutex mutexLimit .free) s.atomic e s'.atomic ∧
        e.seen = a.seen := by
  cases h
  case callForever t hpc => exact .inr ⟨_, .callPlace (congrArg Pc.phase hpc) rfl, rfl⟩
  case callTimed t timeout hpc hfinite =>
    exact .inr ⟨_, .callPlace (congrArg Pc.phase hpc) rfl, rfl⟩
  case callUnlock t hpc => exact .inr ⟨_, .callPlace (congrArg Pc.phase hpc) rfl, rfl⟩
  case lock t l hpc hlock => exact .inr ⟨_, atomicStep_effect hpc rfl (.lock hlock), rfl⟩
  case leave t deadline l hpc hlock => exact .inr ⟨_, atomicStep_effect hpc rfl (.lock hlock), rfl⟩
  case lockFails t ret hpc hret =>
    have herr := mapPosixToOsalError_ne_ok hret
    exact .inr ⟨_, atomicStep_effect hpc rfl (.lockRefused herr), rfl⟩
  case clockFails t timeout hpc =>
    have herr : mapPosixToOsalError (.other (-1)) ≠ .ok := PosError.noConfusion
    exact .inr ⟨_, atomicStep_effect hpc rfl (.lockRefused herr), rfl⟩
  case leaveFails t deadline ret hpc hret =>
    have herr := mapPosixToOsalError_ne_ok hret
    exact .inr ⟨_, atomicStep_effect hpc rfl (.lockRefused herr), rfl⟩
  case unlock t l hpc hunlock => exact .inr ⟨_, atomicStep_effect hpc rfl (.unlock hunlock), rfl⟩
  case unlockFails t hpc hunlock =>
    have herr : mapPosixToOsalError .EPERM ≠ .ok := PosError.noConfusion
    exact .inr ⟨_, atomicStep_effect hpc rfl (.unlockRefused hunlock herr), rfl⟩
  case «return» t ret hpc => exact .inr ⟨_, .replyPlace (congrArg Pc.phase hpc) rfl, rfl⟩
  -- building or reading the deadline does not show
  all_goals
    refine .inl ⟨rfl, AtomicState.ofPlaces_update_of_eq ?_⟩
    simp_all [Pc.phase]

/-- The atomic mutex simulates the statements of `pos_mutex_lock` and `pos_mutex_unlock`. -/
theorem atomicObject_simulates_posMutex :
    ForwardSimulation (posMutex ι) (fun _ _ => True)
      (atomicObject (recursiveMutex mutexLimit .free)) Act.seen ObjEvent.seen
      fun s q => q = s.atomic where
  init s hinit := ⟨s.atomic, ⟨hinit.1, fun t => congrArg Pc.phase (hinit.2 t)⟩, rfl⟩
  step s a s' q hR _ h := by
    rw [hR]
    rcases h.answer with ⟨hseen, hsame⟩ | ⟨e, hstep, hseen⟩
    · exact .inl ⟨hseen, hsame.symm⟩
    · exact .inr ⟨e, _, hstep, hseen, rfl⟩

/-- **`pos_mutex` excludes**: in every run, the operations of the mutex take effect one after the
other, between their calls and their replies, as those of a recursive mutex, and no two tasks can
tell from their calls and replies that they own it. -/
theorem posMutex_excludes {as : List (Act ι)} (hrun : (posMutex ι).Run (fun _ _ => True) as s) :
    (∃ es, Linearization (recursiveMutex mutexLimit .free) (as.filterMap Act.seen) es s.lock) ∧
      (∀ t, TellsLocked .free t (as.filterMap Act.seen) → s.lock.owner = some t) ∧
      ∀ t u, TellsLocked .free t (as.filterMap Act.seen) →
        TellsLocked .free u (as.filterMap Act.seen) → t = u := by
  obtain ⟨es, _, hlin, rfl⟩ := linearization_of_simulation atomicObject_simulates_posMutex hrun
  exact ⟨⟨es, hlin⟩, fun t ht => ht.owner hlin, fun t u => mutual_exclusion hlin⟩

/-- The second task has locked the mutex twice and unlocked it once when the first one's lock
gives up. -/
theorem posMutex_excludes_recursive :
    ∃ (as : List (Act Bool)) (s : State Bool),
      TellsLocked .free true (as.filterMap Act.seen) ∧
        (∃ es, Linearization (recursiveMutex mutexLimit .free) (as.filterMap Act.seen) es s.lock) ∧
        (∀ t, TellsLocked .free t (as.filterMap Act.seen) → s.lock.owner = some t) ∧
        ∀ t u, TellsLocked .free t (as.filterMap Act.seen) →
          TellsLocked .free u (as.filterMap Act.seen) → t = u := by
  have h0 : (posMutex Bool).Run (fun _ _ => True) [] ⟨.free, ⟨0, 0⟩, fun _ => .idle⟩ :=
    .start ⟨rfl, fun _ => rfl⟩
  have h1 := h0.next (.callLock true POS_TIME_FOREVER) trivial (.callForever rfl)
  have h2 := h1.next (.lock true .success) trivial (.lock rfl rfl)
  have h3 := h2.next (.return true _) trivial (.return rfl)
  have h4 := h3.next (.callLock true POS_TIME_FOREVER) trivial (.callForever rfl)
  have h5 := h4.next (.lock true .success) trivial (.lock rfl rfl)
  have h6 := h5.next (.return true _) trivial (.return rfl)
  have h7 := h6.next (.callLock false 5) trivial (.callTimed rfl (by decide))
  have h8 := h7.next (.callUnlock true) trivial (.callUnlock rfl)
  have h9 := h8.next (.clockFails false) trivial (.clockFails rfl)
  have h10 := h9.next (.unlock true .success) trivial (.unlock rfl rfl)
  have h11 := h10.next (.return true _) trivial (.return rfl)
  have h12 := h11.next (.return false _) trivial (.return rfl)
  exact ⟨_, _, by decide, posMutex_excludes h12⟩

end Mutex

namespace OsMutex

variable {ι : Type} [DecidableEq ι] {b : Build} {s s' : State ι} {a : Act ι}

/-- The calls and replies among the steps. -/
def Act.seen {ι : Type} : Act ι → Option (HistoryEvent ι MutexCall PosError)
  | .callLock t => some (.call t .lock)
  | .callUnlock t => some (.call t .unlock)
  | .return t err => some (.reply t err)
  | _ => none

/-- How far the operation of a task at this place is. -/
def Pc.phase : Pc → OpPhase MutexCall PosError
  | .idle => .idle
  | .lock => .called .lock
  | .increment => .done .ok
  | .check _ | .decrement _ | .unlock _ => .called .unlock
  | .lockExit err | .revert _ err | .unlockExit _ err => .done err

/-- Every operation is where its task is. -/
def State.atomic {ι : Type} (s : State ι) : AtomicState (RecLock ι) ι MutexCall PosError :=
  .ofPlaces Pc.phase s.mutex s.pc

variable {l₀ : RecLock ι}

/-- The operation of `t` takes effect. -/
theorem atomicStep_effect {t : ι} {p p' : Pc} {c : MutexCall} {err : PosError} {l : RecLock ι}
    (hpc : s.pc t = p) (hp : p.phase = .called c)
    (hstep : MutexStep mutexLimit s.mutex ⟨t, c, err⟩ l) (hp' : p'.phase = .done err) :
    AtomicStep (recursiveMutex mutexLimit l₀) s.atomic (.effect t c err)
      (State.goto { s with mutex := l } t p').atomic :=
  .effectPlace ((congrArg Pc.phase hpc).trans hp) hstep hp'

/-- A statement is a call, a reply, the effect of an operation, or nothing to be seen. -/
theorem Step.answer (h : Step b s a s') :
    (a.seen = none ∧ s'.atomic = s.atomic) ∨
      ∃ e, AtomicStep (recursiveMutex mutexLimit l₀) s.atomic e s'.atomic ∧
        e.seen = a.seen := by
  cases h
  case callLock t hpc => exact .inr ⟨_, .callPlace (congrArg Pc.phase hpc) rfl, rfl⟩
  case callUnlock t hpc => exact .inr ⟨_, .callPlace (congrArg Pc.phase hpc) rfl, rfl⟩
  case lock t l hpc hlock =>
    exact .inr ⟨_, atomicStep_effect hpc rfl (.lock hlock) rfl, rfl⟩
  case lockFails t err hpc herr =>
    exact .inr ⟨_, atomicStep_effect hpc rfl (.lockRefused herr) rfl, rfl⟩
  case unlock t owns l hpc hunlock =>
    have hgranted := posMutexUnlock_eq_ok.mp hunlock
    exact .inr ⟨_, atomicStep_effect hpc rfl (.unlock hgranted) rfl, rfl⟩
  case unlockFails t owns l err hpc hunlock herr =>
    obtain ⟨hother, rfl⟩ := posMutexUnlock_fails hunlock herr
    have hnone := RecLock.unlock_eq_none.mpr hother
    exact .inr ⟨_, atomicStep_effect hpc rfl (.unlockRefused hnone herr) rfl, rfl⟩
  case returnLock t err hpc => exact .inr ⟨_, .replyPlace (congrArg Pc.phase hpc) rfl, rfl⟩
  case returnUnlock t owns err hpc =>
    exact .inr ⟨_, .replyPlace (congrArg Pc.phase hpc) rfl, rfl⟩
  case checkFails => exact .inl ⟨rfl, rfl⟩
  -- the writes to the depth do not show
  all_goals
    refine .inl ⟨rfl, AtomicState.ofPlaces_update_of_eq ?_⟩
    simp_all [Pc.phase]

/-- The atomic mutex simulates the statements of `Lock` and `Unlock`. -/
theorem atomicObject_simulates_osMutex (b : Build) (m : OsMutex ι) :
    ForwardSimulation ((osMutex b ι).startingAt (fun s => s.toOsMutex) m) (fun _ _ => True)
      (atomicObject (recursiveMutex mutexLimit m.mutex)) Act.seen ObjEvent.seen
      fun s q => q = s.atomic where
  init s hinit := by
    obtain ⟨⟨-, hidle, -⟩, hsame⟩ := hinit
    exact ⟨s.atomic, ⟨congrArg (fun m : OsMutex ι => m.mutex) hsame,
      fun t => congrArg Pc.phase (hidle t)⟩, rfl⟩
  step s a s' q hR _ hstep := by
    rw [hR]
    rcases hstep.2.answer with ⟨hseen, hsame⟩ | ⟨e, hatomic, hseen⟩
    · exact .inl ⟨hseen, hsame.symm⟩
    · exact .inr ⟨e, _, hatomic, hseen, rfl⟩

/-- **`OsMutex` excludes**, in every run from a constructed object `m` on, whatever its depth
says: its operations take effect one after the other as those of a recursive mutex, and no two
tasks can tell from their calls and replies, and from the lock on construction, that they own
it. -/
theorem osMutex_excludes {m : OsMutex ι} {as : List (Act ι)}
    (hrun : ((osMutex b ι).startingAt (fun s => s.toOsMutex) m).Run (fun _ _ => True) as s) :
    (∃ self lockOnConstruction, construct b .ok .ok self lockOnConstruction = .ok m) ∧
    (∃ es, Linearization (recursiveMutex mutexLimit m.mutex) (as.filterMap Act.seen) es
      s.mutex) ∧
    (∀ t, TellsLocked m.mutex t (as.filterMap Act.seen) → s.mutex.owner = some t) ∧
    ∀ t u, TellsLocked m.mutex t (as.filterMap Act.seen) →
      TellsLocked m.mutex u (as.filterMap Act.seen) → t = u := by
  obtain ⟨s₀, ⟨⟨⟨self, lockOnConstruction, hnew⟩, -⟩, rfl⟩, -⟩ :=
    hrun.exists_startingAt fun s => s.toOsMutex
  obtain ⟨es, _, hlin, rfl⟩ :=
    linearization_of_simulation (atomicObject_simulates_osMutex b _) hrun
  exact ⟨⟨self, lockOnConstruction, hnew⟩, ⟨es, hlin⟩, fun t ht => ht.owner hlin,
    fun t u => mutual_exclusion hlin⟩

/-- An object locked on construction by one task, and an `Unlock` by the other one. -/
theorem osMutex_excludes_foreign :
    ∃ (m : OsMutex Bool) (as : List (Act Bool)) (s : State Bool),
      m.mutex = .held true 0 ∧
      as.filterMap Act.seen = [.call false .unlock, .reply false .errPriv] ∧
      (∃ self lockOnConstruction, construct ⟨false⟩ .ok .ok self lockOnConstruction = .ok m) ∧
      (∃ es, Linearization (recursiveMutex mutexLimit m.mutex) (as.filterMap Act.seen) es
        s.mutex) ∧
      (∀ t, TellsLocked m.mutex t (as.filterMap Act.seen) → s.mutex.owner = some t) ∧
      ∀ t u, TellsLocked m.mutex t (as.filterMap Act.seen) →
        TellsLocked m.mutex u (as.filterMap Act.seen) → t = u := by
  let m : OsMutex Bool := { mutex := .held true 0, lockDepth := 1 }
  have h0 : ((osMutex ⟨false⟩ Bool).startingAt (fun s => s.toOsMutex) m).Run (fun _ _ => True) []
      { m with pc := fun _ => .idle, aborted := false } :=
    .start ⟨⟨⟨true, true, rfl⟩, fun _ => rfl, rfl⟩, rfl⟩
  have h1 := h0.next (.callUnlock false) trivial ⟨rfl, .callUnlock rfl⟩
  have h2 := h1.next (.check false) trivial ⟨rfl, .check rfl rfl⟩
  have h3 := h2.next (.decrement false) trivial ⟨rfl, .decrement rfl⟩
  have h4 := h3.next (.unlock false .errPriv) trivial ⟨rfl, .unlockFails rfl rfl (by decide)⟩
  have h5 := h4.next (.revert false) trivial ⟨rfl, .revert rfl⟩
  have h6 := h5.next (.return false .errPriv) trivial ⟨rfl, .returnUnlock rfl⟩
  exact ⟨m, _, _, rfl, rfl, osMutex_excludes h6⟩

end OsMutex

end Poski.Posix
