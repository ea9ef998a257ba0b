import Mathlib.Logic.Function.Basic
import Poski.Lib.RecLock
import Poski.Lib.TransitionSystem
import Poski.Posix.Native
import Poski.Posix.Time

/-!
# The POSIX Mutex

`pos_mutex_lock` of `os_mutex.c` (where it is not `__APPLE__`), statement by statement. The
deadline of a timed lock is built in three statements in `mu->wait`, a field of the mutex
that all callers share, before the mutex is locked.

A task's place carries the timeout of its call and, once it has read the clock, the
reading. The code itself keeps the reading in `mu->wait` only; the place remembers it for
the statement of the results.

- `deadline_overwritten` : two callers, one deadline
- `WaitInv` : the field belongs to the one caller that builds a deadline in it
- `deadline_own` : runs in which the callers build their deadlines one at a time
-/

namespace Poski.Posix.Mutex

open Lib

universe u

/-! ## The machine -/

/-- Where a task stands in `pos_mutex_lock` or `pos_mutex_unlock`. -/
inductive Pc where
  | idle
  | lock
  | clock (timeout : UInt32)
  | addSec (timeout : UInt32) (reading : Timespec)
  | addNsec (timeout : UInt32) (reading : Timespec)
  | timedlock (timeout : UInt32) (reading : Timespec)
  | waiting (deadline : Timespec)
  | unlock
  | exit (ret : Errno)
  deriving DecidableEq, Repr

/-- What can happen in a step; `t` is the task it happens to. -/
inductive Act (ι : Type u) where
  | callLock (t : ι) (timeout : UInt32)
  | lock (t : ι) (ret : Errno)
  | clock (t : ι) (reading : Timespec)
  | clockFails (t : ι)
  | addSec (t : ι)
  | addNsec (t : ι)
  | enter (t : ι) (deadline : Timespec)
  | leave (t : ι) (ret : Errno)
  | callUnlock (t : ι)
  | unlock (t : ι) (ret : Errno)
  | return (t : ι) (err : PosError)

/-- `struct pos_mutex`, and the tasks that use it. -/
structure State (ι : Type u) where
  lock : RecLock ι
  wait : Timespec
  pc : ι → Pc

variable {ι : Type u} [DecidableEq ι]

/-- Task `t` goes to `p`. -/
def State.goto (s : State ι) (t : ι) (p : Pc) : State ι :=
  { s with pc := Function.update s.pc t p }

/-- One step of one task. The constructors follow the statements of the source, except that the
native wait is two steps: `enter` copies the deadline out of `mu->wait`, whose address it is given,
and `leave` is its end. What is written to the field in between has no effect on the wait. -/
inductive Step : State ι → Act ι → State ι → Prop where
  -- `if (timeout == POS_TIME_FOREVER)`
  | callForever {s : State ι} {t : ι} (hpc : s.pc t = .idle) :
      Step s (.callLock t POS_TIME_FOREVER) (s.goto t .lock)
  | callTimed {s : State ι} {t : ι} {timeout : UInt32} (hpc : s.pc t = .idle)
      (hfinite : timeout ≠ POS_TIME_FOREVER) :
      Step s (.callLock t timeout) (s.goto t (.clock timeout))
  -- `ret = pthread_mutex_lock(&mu->lock)`
  | lock {s : State ι} {t : ι} {l : RecLock ι} (hpc : s.pc t = .lock)
      (hlock : s.lock.lock mutexLimit t = some l) :
      Step s (.lock t .success) ({ s with lock := l }.goto t (.exit .success))
  | lockFails {s : State ι} {t : ι} {ret : Errno} (hpc : s.pc t = .lock)
      (hret : ret ≠ .success) : Step s (.lock t ret) (s.goto t (.exit ret))
  -- `ret = clock_gettime(CLOCK_REALTIME, &mu->wait)`
  | clock {s : State ι} {t : ι} {timeout : UInt32} {reading : Timespec}
      (hpc : s.pc t = .clock timeout) :
      Step s (.clock t reading) ({ s with wait := reading }.goto t (.addSec timeout reading))
  | clockFails {s : State ι} {t : ι} {timeout : UInt32} (hpc : s.pc t = .clock timeout) :
      Step s (.clockFails t) (s.goto t (.exit (.other (-1))))
  -- `mu->wait.tv_sec += timeout / 1000`
  | addSec {s : State ι} {t : ι} {timeout : UInt32} {reading : Timespec}
      (hpc : s.pc t = .addSec timeout reading) :
      Step s (.addSec t)
        ({ s with wait := s.wait.addSec timeout }.goto t (.addNsec timeout reading))
  -- `mu->wait.tv_nsec += (timeout % 1000) * 1000000`
  | addNsec {s : State ι} {t : ι} {timeout : UInt32} {reading : Timespec}
      (hpc : s.pc t = .addNsec timeout reading) :
      Step s (.addNsec t)
        ({ s with wait := s.wait.addNsec timeout }.goto t (.timedlock timeout reading))
  -- `ret = pthread_mutex_timedlock(&mu->lock, &mu->wait)`: the source passes the address of the
  -- field, and the native call reads it once, when it is entered
  | enter {s : State ι} {t : ι} {timeout : UInt32} {reading : Timespec}
      (hpc : s.pc t = .timedlock timeout reading) :
      Step s (.enter t s.wait) (s.goto t (.waiting s.wait))
  -- it has locked the mutex, or has given up with a code
  | leave {s : State ι} {t : ι} {deadline : Timespec} {l : RecLock ι}
      (hpc : s.pc t = .waiting deadline) (hlock : s.lock.lock mutexLimit t = some l) :
      Step s (.leave t .success) ({ s with lock := l }.goto t (.exit .success))
  | leaveFails {s : State ι} {t : ι} {deadline : Timespec} {ret : Errno}
      (hpc : s.pc t = .waiting deadline) (hret : ret ≠ .success) :
      Step s (.leave t ret) (s.goto t (.exit ret))
  -- `pos_mutex_unlock(mu)`
  | callUnlock {s : State ι} {t : ι} (hpc : s.pc t = .idle) :
      Step s (.callUnlock t) (s.goto t .unlock)
  | unlock {s : State ι} {t : ι} {l : RecLock ι} (hpc : s.pc t = .unlock)
      (hunlock : s.lock.unlock t = some l) :
      Step s (.unlock t .success) ({ s with lock := l }.goto t (.exit .success))
  | unlockFails {s : State ι} {t : ι} (hpc : s.pc t = .unlock)
      (hunlock : s.lock.unlock t = none) : Step s (.unlock t .EPERM) (s.goto t (.exit .EPERM))
  -- `return map_posix_to_osal_error(ret)`
  | return {s : State ι} {t : ι} {ret : Errno} (hpc : s.pc t = .exit ret) :
      Step s (.return t (mapPosixToOsalError ret)) (s.goto t .idle)

/-- A free mutex that no task has used yet. -/
def posMutex (ι : Type u) [DecidableEq ι] : TransitionSystem (State ι) (Act ι) where
  init s := s.lock = .free ∧ ∀ t, s.pc t = .idle
  step := Step

/-! ## The defect -/

/-- While one task is about to use its deadline, another one reads the clock into it. -/
theorem deadline_overwritten :
    ¬∀ (s s' : State Bool) (t : Bool) (deadline : Timespec), (posMutex Bool).Reachable s →
      (posMutex Bool).step s (.enter t deadline) s' →
        ∀ timeout reading, s.pc t = .timedlock timeout reading →
          deadline.toNs = reading.toNs + timeout.toNat * 1000000 := by
  intro halways
  have h0 : (posMutex Bool).Run (fun _ _ => True) [] ⟨.free, ⟨0, 0⟩, fun _ => .idle⟩ :=
    .start ⟨rfl, fun _ => rfl⟩
  have h1 := h0.next (.callLock true 1000) trivial (.callTimed rfl (by decide))
  have h2 := h1.next (.callLock false 5000) trivial (.callTimed rfl (by decide))
  have h3 := h2.next (.clock true ⟨10, 0⟩) trivial (.clock rfl)
  have h4 := h3.next (.addSec true) trivial (.addSec rfl)
  have h5 := h4.next (.addNsec true) trivial (.addNsec rfl)
  have h6 := h5.next (.clock false ⟨10, 7⟩) trivial (.clock rfl)
  have hdeadline := halways _ _ true _ ⟨_, h6⟩ (.enter rfl) 1000 ⟨10, 0⟩ rfl
  exact absurd hdeadline (by decide)

/-! ## Callers that build their deadlines one at a time -/

/-- What a task that is building its deadline expects to find in `mu->wait`. -/
def Pc.expects : Pc → Option Timespec
  | .addSec _ reading => some reading
  | .addNsec timeout reading => some (reading.addSec timeout)
  | .timedlock timeout reading => some ((reading.addSec timeout).addNsec timeout)
  | _ => none

/-- A call reads the clock only while no other call is between its own reading and its
`pthread_mutex_timedlock`. -/
def Alone (s : State ι) : Act ι → Prop
  | .clock t _ => ∀ u, u ≠ t → (s.pc u).expects = none
  | _ => True

/-- At most one task is building a deadline, and `mu->wait` is what it expects. -/
structure WaitInv (s : State ι) : Prop where
  wait : ∀ t ts, (s.pc t).expects = some ts → s.wait = ts
  unique : ∀ t u, (s.pc t).expects ≠ none → (s.pc u).expects ≠ none → t = u

/-- The task that a step happens to. -/
def Act.actor : Act ι → ι
  | .callLock t _ | .lock t _ | .clock t _ | .clockFails t | .addSec t | .addNsec t
  | .enter t _ | .leave t _ | .callUnlock t | .unlock t _ | .return t _ => t

variable {s s' : State ι} {a : Act ι}

theorem Step.pc_of_ne (h : Step s a s') {u : ι} (hu : u ≠ a.actor) : s'.pc u = s.pc u := by
  cases h <;> exact Function.update_of_ne hu _ _

/-- What a step does to `mu->wait`: it is read into, or changed as its actor expects, or
left alone by a task that expects nothing any more. -/
theorem Step.wait_cases (h : Step s a s') :
    (∃ reading, a = .clock a.actor reading ∧ s'.wait = reading ∧
        (s'.pc a.actor).expects = some reading) ∨
      (∃ (f : Timespec → Timespec) (ts : Timespec), (s.pc a.actor).expects = some ts ∧
        s'.wait = f s.wait ∧ (s'.pc a.actor).expects = some (f ts)) ∨
      (s'.wait = s.wait ∧ (s'.pc a.actor).expects = none) := by
  cases h
  case clock t timeout reading hpc =>
    exact .inl ⟨reading, rfl, rfl, by simp [State.goto, Act.actor, Pc.expects]⟩
  case addSec t timeout reading hpc =>
    refine .inr (.inl ⟨(·.addSec timeout), reading, ?_, rfl, ?_⟩)
    · simp [Act.actor, hpc, Pc.expects]
    · simp [State.goto, Act.actor, Pc.expects]
  case addNsec t timeout reading hpc =>
    refine .inr (.inl ⟨(·.addNsec timeout), reading.addSec timeout, ?_, rfl, ?_⟩)
    · simp [Act.actor, hpc, Pc.expects]
    · simp [State.goto, Act.actor, Pc.expects]
  all_goals exact .inr (.inr ⟨rfl, by simp [State.goto, Act.actor, Pc.expects]⟩)

theorem WaitInv.step (hinv : WaitInv s) (h : Step s a s') (hcond : Alone s a) : WaitInv s' := by
  -- with the actor building, everybody else is not
  have hothers : (∀ u, u ≠ a.actor → (s.pc u).expects = none) →
      (∀ ts, (s'.pc a.actor).expects = some ts → s'.wait = ts) → WaitInv s' := by
    intro hnone hactor
    have hself : ∀ u, (s'.pc u).expects ≠ none → u = a.actor := by
      intro u hu
      by_contra hne
      rw [h.pc_of_ne hne] at hu
      exact hu (hnone u hne)
    refine ⟨fun u ts hu => ?_, fun u v hu hv => (hself u hu).trans (hself v hv).symm⟩
    have hu' := hself u (by simp [hu])
    rw [hu'] at hu
    exact hactor ts hu
  rcases h.wait_cases with ⟨reading, ha, hwait, hexp⟩ | ⟨f, ts, hbefore, hwait, hexp⟩ |
    ⟨hwait, hexp⟩
  · refine hothers ?_ fun ts hts => ?_
    · rw [ha] at hcond
      exact hcond
    · rw [hwait]
      exact Option.some_inj.mp (hexp.symm.trans hts)
  · refine hothers (fun u hu => ?_) fun ts' hts' => ?_
    · by_contra hbuilds
      exact hu (hinv.unique u a.actor hbuilds (by simp [hbefore]))
    · rw [hwait, hinv.wait _ _ hbefore]
      exact Option.some_inj.mp (hexp.symm.trans hts')
  · have hne : ∀ u, (s'.pc u).expects ≠ none → u ≠ a.actor := by
      rintro u hu rfl
      exact hu hexp
    refine ⟨fun u ts hu => ?_, fun u v hu hv => ?_⟩
    · rw [h.pc_of_ne (hne u (by simp [hu]))] at hu
      rw [hwait]
      exact hinv.wait u ts hu
    · have hu' := hu
      have hv' := hv
      rw [h.pc_of_ne (hne u hu)] at hu'
      rw [h.pc_of_ne (hne v hv)] at hv'
      exact hinv.unique u v hu' hv'

/-- A call enters with what it has built in `mu->wait`. -/
theorem entered_deadline (hreach : (posMutex ι).ReachableWhen Alone s) {t : ι}
    {deadline : Timespec} (hstep : (posMutex ι).step s (.enter t deadline) s') {timeout : UInt32}
    {reading : Timespec} (hpc : s.pc t = .timedlock timeout reading) :
    deadline = (reading.addSec timeout).addNsec timeout := by
  have hinv : WaitInv s := by
    refine hreach.invariant (fun s hinit => ?_) fun _ _ _ hinv hcond hstep =>
      WaitInv.step hinv hstep hcond
    have hnone : ∀ t, (s.pc t).expects = none := by
      intro t
      rw [hinit.2 t]
      rfl
    exact ⟨fun t ts ht => absurd ht (by simp [hnone t]), fun t u ht _ => absurd (hnone t) ht⟩
  have hentered : deadline = s.wait := by
    cases hstep
    rfl
  rw [hentered]
  exact hinv.wait t _ (by rw [hpc]; rfl)

/-- **A call's deadline is its own**: in every run whose callers read the clock one at a
time, the deadline with which a call enters `pthread_mutex_timedlock` is its own clock
reading plus its own timeout. -/
theorem deadline_own (hreach : (posMutex ι).ReachableWhen Alone s) {t : ι} {deadline : Timespec}
    (hstep : (posMutex ι).step s (.enter t deadline) s') {timeout : UInt32} {reading : Timespec}
    (hpc : s.pc t = .timedlock timeout reading) :
    deadline = (reading.addSec timeout).addNsec timeout ∧
      deadline.toNs = reading.toNs + timeout.toNat * 1000000 := by
  have hdeadline := entered_deadline hreach hstep hpc
  exact ⟨hdeadline, by rw [hdeadline, Timespec.toNs_addSec_addNsec]⟩

/-- Two tasks, of which the second reads the clock after the first has entered. -/
theorem deadline_own_second :
    ∃ (s s' : State Bool) (deadline : Timespec), s.pc true = .waiting ⟨11, 0⟩ ∧
      (posMutex Bool).step s (.enter false deadline) s' ∧
      deadline = ((⟨10, 7⟩ : Timespec).addSec 5000).addNsec 5000 ∧
        deadline.toNs = (⟨10, 7⟩ : Timespec).toNs + (5000 : UInt32).toNat * 1000000 := by
  have h0 : (posMutex Bool).Run Alone [] ⟨.free, ⟨0, 0⟩, fun _ => .idle⟩ :=
    .start ⟨rfl, fun _ => rfl⟩
  have h1 := h0.next (.callLock true 1000) trivial (.callTimed rfl (by decide))
  have h2 := h1.next (.callLock false 5000) trivial (.callTimed rfl (by decide))
  have h3 := h2.next (.clock true ⟨10, 0⟩)
    (Bool.forall_bool.mpr ⟨fun _ => rfl, fun h => absurd rfl h⟩) (.clock rfl)
  have h4 := h3.next (.addSec true) trivial (.addSec rfl)
  have h5 := h4.next (.addNsec true) trivial (.addNsec rfl)
  have h6 := h5.next (.enter true ⟨11, 0⟩) trivial (.enter rfl)
  have h7 := h6.next (.clock false ⟨10, 7⟩)
    (Bool.forall_bool.mpr ⟨fun h => absurd rfl h, fun _ => rfl⟩) (.clock rfl)
  have h8 := h7.next (.addSec false) trivial (.addSec rfl)
  have h9 := h8.next (.addNsec false) trivial (.addNsec rfl)
  exact ⟨_, _, _, rfl, .enter rfl,
    @deadline_own Bool _ _ _ ⟨_, h9⟩ false _ (.enter rfl) 5000 ⟨10, 7⟩ rfl⟩

end Poski.Posix.Mutex
