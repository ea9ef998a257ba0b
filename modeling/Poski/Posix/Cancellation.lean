import Mathlib.Logic.Relation
import Poski.Posix.MonitorInvariant

/-!
# Removing Tasks that Use a Queue

`pos_task_remove` cancels a thread. `RingPthread::get` installs no cleanup handler, so a
consumer that is cancelled inside `pthread_cond_wait` locks the mutex once more and dies
with it. This is the only way in which the mutex can be lost: every other owner stands
between lock and unlock, where nothing cancels it, and comes to its unlock by itself.

- `mutex_lost` : a run that loses the mutex
- `OwnerInv` : the owner stands between lock and unlock, and has locked once
- `owner_unlocks` : the owner's own steps free the mutex
- `mutex_not_lost` : runs in which no cancellation takes effect in a wait
-/

namespace Poski.Posix

open Lib TransitionSystem

universe u

variable {ι : Type u} [DecidableEq ι] {b : Build} {s s' : Monitor ι} {a : Act ι}

/-! ## The defect -/

/-- A consumer is removed while it waits on an empty queue. -/
theorem mutex_lost :
    ¬∀ s : Monitor Bool, (ringPthread Bool ⟨false⟩ 1 2).Reachable s →
      ∀ t, s.pc t = .terminated → s.mutex.owner ≠ some t := by
  intro halways
  have h0 : (ringPthread Bool ⟨false⟩ 1 2).Run (fun _ _ => True) [] _ :=
    .start (init_start ⟨false⟩ .zeroed 1 2 rfl)
  -- the consumer finds the queue empty and begins to wait
  have h1 := h0.next (.callGet true [0] 1) trivial ⟨rfl, .callGet rfl rfl⟩
  have h2 := h1.next (.lock true) trivial ⟨rfl, .lockGet rfl rfl⟩
  have h3 := h2.next (.loop true) trivial ⟨rfl, .loopWait rfl (by decide) rfl rfl⟩
  -- it is cancelled in `pthread_cond_wait`, which locks the mutex once more
  have h4 := h3.next (.remove true) trivial ⟨rfl, .remove⟩
  have h5 := h4.next (.cancel true) trivial ⟨rfl, .cancel rfl rfl⟩
  have h6 := h5.next (.cancelRelock true) trivial ⟨rfl, .cancelRelock rfl rfl⟩
  exact halways _ ⟨_, h6⟩ true rfl rfl

/-! ## Who owns the mutex -/

/-- No cancellation takes effect while its task is inside `pthread_cond_wait`. -/
def CancelsOutsideWait (s : Monitor ι) (a : Act ι) : Prop :=
  ∀ t, a = .cancel t → (s.pc t).waits = false

/-- The mutex is free, or locked once by a task between its lock and its unlock; nobody
is on the way of a cancelled waiter. -/
structure OwnerInv (s : Monitor ι) : Prop where
  owner : s.mutex = .free ∨ ∃ t, s.mutex = .held t 0 ∧ (s.pc t).holds = true
  not_cancelled : ∀ t, s.pc t ≠ .cancelled

theorem OwnerInv.init {itemSize itemCount : UInt16}
    (h : (ringPthread ι b itemSize itemCount).init s) : OwnerInv s := by
  obtain ⟨-, hfree, -, hidle, -, -⟩ := h
  refine ⟨.inl hfree, fun t ht => ?_⟩
  rw [hidle t] at ht
  cases ht

section

variable {t : ι} {m : RecLock ι}

omit [DecidableEq ι] in
/-- The task that owns the mutex has locked it once, and stands before its unlock. -/
theorem OwnerInv.held (hinv : OwnerInv s) (howner : s.mutex.owner = some t) :
    s.mutex = .held t 0 ∧ (s.pc t).holds = true := by
  rcases hinv.owner with hfree | ⟨u, hheld, hu⟩
  · rw [hfree] at howner
    cases howner
  · rw [hheld] at howner
    cases howner
    exact ⟨hheld, hu⟩

/-- Its unlock frees the mutex. -/
theorem OwnerInv.free_of_unlock (hinv : OwnerInv s) (hunlock : s.mutex.unlock t = some m) :
    m = .free := by
  obtain ⟨n, hheld, hcount, -⟩ := RecLock.unlock_eq_some.mp hunlock
  have howner : s.mutex.owner = some t := by rw [hheld, RecLock.owner_held]
  rw [(hinv.held howner).1] at hheld
  cases hheld
  exact RecLock.count_eq_zero.mp hcount

/-- Nobody locks it twice. -/
theorem OwnerInv.free_of_lock (hinv : OwnerInv s)
    (hlock : s.mutex.lock mutexLimit t = some m) (hplace : (s.pc t).holds = false) :
    s.mutex = .free := by
  obtain ⟨hwho, -, -⟩ := RecLock.lock_eq_some.mp hlock
  refine hwho.resolve_right fun howner => ?_
  rw [(hinv.held howner).2] at hplace
  cases hplace

omit [DecidableEq ι] in
/-- An owner that has terminated contradicts the invariant. -/
theorem OwnerInv.not_terminated (hinv : OwnerInv s) (ht : s.pc t = .terminated) :
    s.mutex.owner ≠ some t := by
  intro howner
  have hholds := (hinv.held howner).2
  rw [ht] at hholds
  cases hholds

end

/-- Only a waiting task becomes a cancelled one. -/
theorem Step.cancelled (h : Step b s a s') (hcancelled : s'.pc a.actor = .cancelled) :
    s.pc a.actor = .cancelled ∨ ∃ t, a = .cancel t ∧ (s.pc t).waits = true := by
  cases h
  case cancel t out tmo hpending hpc => exact .inr ⟨t, rfl, by rw [hpc]; rfl⟩
  all_goals simp_all [Act.actor]

theorem OwnerInv.step (hinv : OwnerInv s) (h : Step b s a s')
    (hcond : CancelsOutsideWait s a) : OwnerInv s' where
  owner := by
    -- left alone, locked or unlocked by the actor
    rcases h.mutex_cases with ⟨hsame, hplace⟩ | ⟨hlock, hplace, hto⟩ | ⟨hunlock, -⟩
    · rw [hsame]
      rcases hinv.owner with hfree | ⟨t, hheld, ht⟩
      · exact .inl hfree
      · refine .inr ⟨t, hheld, ?_⟩
        by_cases hactor : t = a.actor
        · rw [hactor, hplace, ← hactor, ht]
        · rw [h.pc_of_ne hactor, ht]
    · -- the actor was not between lock and unlock, so this is not a second lock
      obtain ⟨-, -, heq⟩ := RecLock.lock_eq_some.mp hlock
      rw [hinv.free_of_lock hlock hplace] at heq
      exact .inr ⟨_, heq, hto.resolve_right (hinv.not_cancelled _)⟩
    · exact .inl (hinv.free_of_unlock hunlock)
  not_cancelled t ht := by
    by_cases hactor : t = a.actor
    · subst hactor
      rcases h.cancelled ht with hbefore | ⟨t, rfl, hwaits⟩
      · exact hinv.not_cancelled _ hbefore
      · rw [hcond t rfl] at hwaits
        cases hwaits
    · rw [h.pc_of_ne hactor] at ht
      exact hinv.not_cancelled t ht

/-! ## The owner comes to its unlock -/

/-- How many statements there are at most from a place to the next unlock. -/
def Pc.toUnlock : Pc → ℕ
  | .getLoop _ _ => 6
  | .getTest _ => 5
  | .getFront _ => 4
  | .putPush _ | .getCopy _ _ => 3
  | .putSignal | .getPop _ | .sizeRead => 2
  | .putUnlock | .getUnlock _ _ | .sizeUnlock _ => 1
  | _ => 0

/-- A step of the task `t`. -/
def StepOf (b : Build) (t : ι) (s s' : Monitor ι) : Prop :=
  s.halted = none ∧ ∃ a, a.actor = t ∧ Step b s a s'

/-- The task has come one statement closer to its unlock. -/
structure Closer (t : ι) (s s' : Monitor ι) : Prop where
  mutex : s'.mutex = s.mutex
  holds : (s'.pc t).holds = true
  toUnlock : (s'.pc t).toUnlock < (s.pc t).toUnlock

/-- A step to a place that is closer, and still needs the mutex. -/
theorem closer_step {t : ι} {p : Pc} {r : OsRing} {c : Finset ι} (hrunning : s.halted = none)
    (hactor : a.actor = t) (h : Step b s a ({ s with ring := r, condv := c }.goto t p))
    (hp : p.holds = true) (hless : p.toUnlock < (s.pc t).toUnlock) :
    ∃ s', StepOf b t s s' ∧ (s'.mutex = .free ∨ s'.halted ≠ none ∨ Closer t s s') := by
  refine ⟨_, ⟨hrunning, a, hactor, h⟩, .inr (.inr ⟨rfl, ?_, ?_⟩)⟩
  · simpa using hp
  · simpa using hless

/-- Each statement between lock and unlock can be executed, and is followed by one that
is closer to the unlock, unless it unlocks the mutex or ends the process. -/
theorem owner_step (b : Build) {t : ι} (hrunning : s.halted = none)
    (hheld : s.mutex = .held t 0) (ht : (s.pc t).holds = true) :
    ∃ s', StepOf b t s s' ∧ (s'.mutex = .free ∨ s'.halted ≠ none ∨ Closer t s s') := by
  have hunlock : s.mutex.unlock t = some .free := by
    rw [hheld]
    simp [RecLock.unlock, RecLock.release]
  cases hpc : s.pc t with
  | putPush item =>
    -- the process ends if the assertion of `push_back` fails
    cases hpush : s.ring.pushBack b item with
    | error e => exact ⟨_, ⟨hrunning, _, rfl, .pushHalt hpc hpush⟩, by simp⟩
    | ok r =>
      exact closer_step hrunning rfl (.push hpc hpush) rfl (by simp [hpc, Pc.toUnlock])
  | putSignal =>
    exact closer_step hrunning rfl (.signal hpc subset_rfl id) rfl (by simp [hpc, Pc.toUnlock])
  | putUnlock => exact ⟨_, ⟨hrunning, _, rfl, .unlockPut hpc hunlock⟩, .inl rfl⟩
  | getLoop out tmo =>
    -- `pthread_cond_wait` unlocks the mutex, too
    by_cases hwait : tmo ≠ 0 ∧ s.ring.size = 0
    · exact ⟨_, ⟨hrunning, _, rfl, .loopWait hpc hwait.1 hwait.2 hunlock⟩, .inl rfl⟩
    · have hpass : tmo = 0 ∨ s.ring.size ≠ 0 := by tauto
      exact closer_step hrunning rfl (.loopPass hpc hpass) rfl (by simp [hpc, Pc.toUnlock])
  | getTest out =>
    by_cases hsize : s.ring.size = 0
    · exact closer_step hrunning rfl (.testNone hpc hsize) rfl (by simp [hpc, Pc.toUnlock])
    · exact closer_step hrunning rfl (.testSome hpc hsize) rfl (by simp [hpc, Pc.toUnlock])
  | getFront out =>
    cases hfront : s.ring.front with
    | none =>
      exact closer_step hrunning rfl (.frontNone hpc hfront) rfl (by simp [hpc, Pc.toUnlock])
    | some item =>
      exact closer_step hrunning rfl (.frontSome hpc hfront) rfl (by simp [hpc, Pc.toUnlock])
  | getCopy out item =>
    cases hcopy : memcpy out 0 (s.ring.buffer.drop item) s.ring.itemSize.toNat with
    | error e => exact ⟨_, ⟨hrunning, _, rfl, .copyHalt hpc hcopy⟩, by simp⟩
    | ok out' =>
      exact closer_step hrunning rfl (.copy hpc hcopy) rfl (by simp [hpc, Pc.toUnlock])
  | getPop out =>
    cases hpop : s.ring.popFront b with
    | error e => exact ⟨_, ⟨hrunning, _, rfl, .popHalt hpc hpop⟩, by simp⟩
    | ok r =>
      exact closer_step hrunning rfl (.pop hpc hpop) rfl (by simp [hpc, Pc.toUnlock])
  | getUnlock out found => exact ⟨_, ⟨hrunning, _, rfl, .unlockGet hpc hunlock⟩, .inl rfl⟩
  | sizeRead =>
    exact closer_step hrunning rfl (.read hpc) rfl (by simp [hpc, Pc.toUnlock])
  | sizeUnlock n => exact ⟨_, ⟨hrunning, _, rfl, .unlockSize hpc hunlock⟩, .inl rfl⟩
  -- everywhere else the task does not have the mutex
  | _ =>
    rw [hpc] at ht
    cases ht

/-- **The owner's own steps free the mutex**, if they do not end the process. -/
theorem owner_unlocks (b : Build) {t : ι} (hheld : s.mutex = .held t 0)
    (ht : (s.pc t).holds = true) :
    ∃ s', Relation.ReflTransGen (StepOf b t) s s' ∧ (s'.mutex = .free ∨ s'.halted ≠ none) := by
  refine exists_path_of_closer (I := fun s => s.mutex = .held t 0 ∧ (s.pc t).holds = true)
    (fun s => (s.pc t).toUnlock) ?_ ⟨hheld, ht⟩
  intro s hinv hgoal
  obtain ⟨hheld, ht⟩ := hinv
  rw [not_or, not_not] at hgoal
  obtain ⟨s₁, hstep, hfree | hhalted | hcloser⟩ := owner_step b hgoal.2 hheld ht
  · exact ⟨s₁, hstep, .inl (.inl hfree)⟩
  · exact ⟨s₁, hstep, .inl (.inr hhalted)⟩
  · -- the task is still the owner, and closer to its unlock
    exact ⟨s₁, hstep, .inr ⟨⟨hcloser.mutex.trans hheld, hcloser.holds⟩, hcloser.toUnlock⟩⟩

/-! ## Runs that keep the mutex -/

variable {itemSize itemCount : UInt16}

/-- **The mutex is not lost** as long as no cancellation takes effect inside
`pthread_cond_wait`: no terminated task owns the mutex, and whoever owns it can free it by
its own steps, so that every live task can lock it again. -/
theorem mutex_not_lost
    (hreach : (ringPthread ι b itemSize itemCount).ReachableWhen CancelsOutsideWait s) :
    (∀ t, s.pc t = .terminated → s.mutex.owner ≠ some t) ∧
      ∀ t, s.mutex.owner = some t →
        ∃ s', Relation.ReflTransGen (StepOf b t) s s' ∧
          (s'.mutex = .free ∨ s'.halted ≠ none) := by
  have hinv : OwnerInv s := hreach.invariant (fun _ => OwnerInv.init)
    (fun _ _ _ hinv hcond hstep => hinv.step hstep.2 hcond)
  refine ⟨fun t => hinv.not_terminated, fun t howner => ?_⟩
  obtain ⟨hheld, hholds⟩ := hinv.held howner
  exact owner_unlocks b hheld hholds

/-- One task is removed and ends outside the queue's operations while another one has the
mutex. -/
theorem mutex_not_lost_removed :
    ∃ s : Monitor Bool, s.pc false = .terminated ∧ s.mutex.owner = some true ∧
      (∀ t, s.pc t = .terminated → s.mutex.owner ≠ some t) ∧
        ∀ t, s.mutex.owner = some t →
          ∃ s', Relation.ReflTransGen (StepOf ⟨false⟩ t) s s' ∧
            (s'.mutex = .free ∨ s'.halted ≠ none) := by
  have h0 : (ringPthread Bool ⟨false⟩ 1 2).Run CancelsOutsideWait [] _ :=
    .start (init_start ⟨false⟩ .zeroed 1 2 rfl)
  have h1 := h0.next (.remove false) nofun ⟨rfl, .remove⟩
  have h2 := h1.next (.callGet true [0] 1) nofun ⟨rfl, .callGet rfl rfl⟩
  have h3 := h2.next (.lock true) nofun ⟨rfl, .lockGet rfl rfl⟩
  have h4 := h3.next (.exit false) nofun ⟨rfl, .exit rfl rfl⟩
  exact ⟨_, rfl, rfl, mutex_not_lost ⟨_, h4⟩⟩

/-! ## A rule for the callers -/

/-- A task is removed only while it is not inside `pthread_cond_wait`, and a task that has
been removed does not begin to wait there. -/
def RemovesSafely (s : Monitor ι) : Act ι → Prop
  | .remove t => (s.pc t).waits = false
  | .loop t => s.pending t = true →
    ∀ out tmo, s.pc t = .getLoop out tmo → tmo = 0 ∨ s.ring.size ≠ 0
  | _ => True

/-- Under the rule no waiting task is marked for removal. -/
theorem RemovesSafely.step (hunmarked : ∀ t, (s.pc t).waits = true → s.pending t = false)
    (h : Step b s a s') (hcond : RemovesSafely s a) :
    ∀ t, (s'.pc t).waits = true → s'.pending t = false := by
  intro u hu
  by_cases hactor : u = a.actor
  · subst hactor
    cases h
    -- only a task that is not marked begins to wait
    case loopWait t out tmo m hpc htmo hsize hunlock =>
      show s.pending t = false
      by_contra hmarked
      rcases hcond (by simpa using hmarked) out tmo hpc with hzero | hsome
      · exact htmo hzero
      · exact hsome hsize
    case remove t =>
      exact absurd (hu.symm.trans hcond) (by decide)
    all_goals first
      | exact hunmarked _ hu
      | simp [Act.actor, Pc.waits] at hu
  · rw [h.pc_of_ne hactor] at hu
    cases h
    case remove t =>
      have hne : u ≠ t := hactor
      show Function.update s.pending t true u = false
      rw [Function.update_of_ne hne]
      exact hunmarked u hu
    all_goals exact hunmarked u hu

/-- **The rule suffices**: under it no cancellation takes effect in a wait. -/
theorem RemovesSafely.run {as : List (Act ι)}
    (hrun : (ringPthread ι b itemSize itemCount).Run RemovesSafely as s) :
    (ringPthread ι b itemSize itemCount).Run CancelsOutsideWait as s ∧
      ∀ t, (s.pc t).waits = true → s.pending t = false := by
  induction hrun with
  | start hinit =>
    refine ⟨.start hinit, fun t _ => ?_⟩
    obtain ⟨-, -, -, -, hpending, -⟩ := hinit
    exact hpending t
  | @step as s s' a _ hcond hstep ih =>
    obtain ⟨hrun, hunmarked⟩ := ih
    refine ⟨hrun.next a ?_ hstep, RemovesSafely.step hunmarked hstep.2 hcond⟩
    rintro t rfl
    -- who is cancelled has been marked, so it does not wait
    have hmarked : s.pending t = true := by
      obtain ⟨-, h⟩ := hstep
      cases h
      assumption
    by_contra hwaits
    rw [hunmarked t (by simpa using hwaits)] at hmarked
    cases hmarked

end Poski.Posix
