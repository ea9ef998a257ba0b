import Poski.Posix.Cancellation
import Poski.Posix.Time

/-!
# The Timeout of a POSIX Queue

`RingPthread::get` looks at its timeout once, to tell a call that may wait from one that may
not. The wait itself is a `pthread_cond_wait`, which knows no time: it is another task's `put`
that ends it, whatever the timeout.

- `get_never_returns` : a call with a timeout, on a queue that stays empty
- `GetInv` : what holds in every run in which no task is removed
- `nextSize_step` : how many messages there are when the mutex is free next is settled
- `Served` : the calls that need no other task
- `can_return_iff` : exactly these can return without one
-/

namespace Poski.Posix

open Lib TransitionSystem

universe u

variable {ι : Type u} [DecidableEq ι] {b : Build} {s s' : Monitor ι} {a : Act ι} {t : ι}

/-! ## Returning without another task -/

/-- Inside `RingPthread::get`, called with a timeout that is neither zero nor infinite. Past its
loop the call does not need the timeout any more. -/
def Pc.inTimedGet : Pc → Prop
  | .getLock _ tmo | .getLoop _ tmo | .getWait _ tmo =>
    tmo ≠ POS_TIME_NO_WAIT ∧ tmo ≠ POS_TIME_FOREVER
  | .getTest _ | .getFront _ | .getCopy _ _ | .getPop _ | .getUnlock _ _ | .getReturn _ _ => True
  | _ => False

/-- No task is removed, and none is woken but by a signal. -/
def Act.regular : Act ι → Bool
  | .wake _ | .remove _ => false
  | _ => true

/-- A step of `t`, or of the task that has the mutex and is on its way to unlock it. -/
def UnaidedStep (b : Build) (t : ι) (s s' : Monitor ι) : Prop :=
  s.halted = none ∧
    ∃ a, Step b s a s' ∧ (a.actor = t ∨ s.mutex.owner = some a.actor) ∧ a.regular = true

/-- By such steps the call of `t` comes to return. -/
def CanReturn (b : Build) (s : Monitor ι) (t : ι) : Prop :=
  ∃ s₁ s₂ out err, Relation.ReflTransGen (UnaidedStep b t) s s₁ ∧ s₁.halted = none ∧
    Step b s₁ (.returnGet t out err) s₂ ∧ (err = .ok ∨ err = .timeout)

/-! ## The condition -/

/-- How many messages there are when one has been taken, if there was one. -/
def sizeTaken (r : OsRing) : UInt16 := if r.size = 0 then 0 else r.popped.size

/-- How many messages there are when a task at this place has unlocked the mutex, if it does not
end the process. -/
def Pc.sizeAfter (b : Build) (r : OsRing) : Pc → Option UInt16
  | .putPush item => (r.pushBack b item).toOption.map OsRing.size
  | .getLoop _ _ | .getTest _ | .getFront _ | .getCopy _ _ | .getPop _ =>
    some (sizeTaken r)
  | _ => some r.size

/-- How many messages there are when the mutex is free next. -/
def Monitor.nextSize (b : Build) (s : Monitor ι) : Option UInt16 :=
  match s.mutex.owner with
  | none => some s.ring.size
  | some u => (s.pc u).sizeAfter b s.ring

/-- There is a message when the mutex is free next. -/
def Monitor.Offers (b : Build) (s : Monitor ι) : Prop :=
  ∃ n, s.nextSize b = some n ∧ n ≠ 0

/-- Before `pthread_cond_signal`. -/
def Pc.signals : Pc → Bool
  | .putPush _ | .putSignal => true
  | _ => false

/-- A call that is past its loop needs no other task. One that is before its loop, or has been
woken, needs a message that is there or is being put, and one that is parked needs a signal,
too. -/
def Served (b : Build) (s : Monitor ι) (t : ι) : Prop :=
  match s.pc t with
  | .getLock _ _ => s.Offers b
  | .getLoop _ _ => s.ring.size ≠ 0
  | .getWait _ _ =>
    s.Offers b ∧ (t ∈ s.condv → ∃ u, s.mutex.owner = some u ∧ (s.pc u).signals = true)
  | _ => True

/-! ## Runs without removals -/

/-- What holds in every run in which no task is removed. -/
structure GetInv (s : Monitor ι) : Prop where
  exclusive : Exclusive s
  owner : OwnerInv s
  allocated : s.ring.Allocated
  slot : s.ring.size ≠ 0 → s.ring.itemSize = 0 ∨ s.ring.itemCount ≠ 0
  knows : ∀ t, Knows s.ring (s.pc t)
  pending : ∀ t, s.pending t = false

omit [DecidableEq ι] in
theorem Act.noRemove (hregular : a.regular = true) : NoRemove s a := by
  rintro u rfl
  cases hregular

variable {itemSize itemCount : UInt16}

omit [DecidableEq ι] in
theorem GetInv.frontFits (hinv : GetInv s) : FrontFits s.ring := fun hsize =>
  (hinv.allocated.offset_add_le_iff _).mpr (hinv.slot hsize)

theorem GetInv.init (h : (ringPthread ι b itemSize itemCount).init s) : GetInv s := by
  have hexcl := exclusive_init h
  have howner := OwnerInv.init h
  obtain ⟨⟨heap, hnew⟩, -, -, hidle, hpending, -⟩ := h
  obtain ⟨-, hsize, hcount, hread, hwrite, hlen⟩ := OsRing.construct_eq_ok hnew
  refine ⟨hexcl, howner, ?_, fun hsome => ?_, fun t => ?_, hpending⟩
  · rw [OsRing.Allocated, hlen, hsize, hcount]
  · rw [OsRing.size, hread, hwrite] at hsome
    exact absurd rfl hsome
  · rw [hidle t]
    trivial

theorem GetInv.step (hinv : GetInv s) (h : Step b s a s') (hremove : NoRemove s a) :
    GetInv s' := by
  have howner : OwnerInv s' := by
    refine hinv.owner.step h fun u hu => ?_
    -- nobody is marked, so nobody is cancelled
    subst hu
    cases h
    case cancel out tmo hpending hpc =>
      rw [hinv.pending u] at hpending
      cases hpending
  have hpending : ∀ u, s'.pending u = false := by
    rw [h.pending_eq hremove]
    exact hinv.pending
  refine ⟨hinv.exclusive.step h, howner, ?_, ?_, h.knows hinv.exclusive hinv.frontFits hinv.knows,
    hpending⟩
  · rcases h.ring_cases with hsame | ⟨u, item, -, -, hpush⟩ | ⟨u, out, -, -, hpop⟩
    · rw [hsame]
      exact hinv.allocated
    · obtain ⟨-, ⟨hitem, hfits⟩, heq⟩ := OsRing.pushBack_eq_ok.mp hpush
      rw [heq]
      exact hinv.allocated.pushed hitem hfits
    · obtain ⟨-, heq⟩ := OsRing.popFront_eq_ok.mp hpop
      rw [heq]
      exact hinv.allocated
  · rcases h.ring_cases with hsame | ⟨u, item, -, -, hpush⟩ | ⟨u, out, -, hpc, hpop⟩
    · rw [hsame]
      exact hinv.slot
    · -- what has been written fits, and so does every message
      obtain ⟨-, ⟨-, hfits⟩, heq⟩ := OsRing.pushBack_eq_ok.mp hpush
      rw [heq]
      exact fun _ => (hinv.allocated.offset_add_le_iff _).mp hfits
    · have hknows := hinv.knows u
      rw [hpc] at hknows
      obtain ⟨-, heq⟩ := OsRing.popFront_eq_ok.mp hpop
      rw [heq]
      exact fun _ => hinv.slot hknows.1

theorem GetInv.of_reachable
    (hreach : (ringPthread ι b itemSize itemCount).ReachableWhen NoRemove s) : GetInv s :=
  hreach.invariant (fun _ => GetInv.init) fun _ _ _ hinv hcond hstep => hinv.step hstep.2 hcond

/-! ## The next size -/

theorem Pc.sizeAfter_of_not_holds {p : Pc} (h : p.holds = false) (r : OsRing) :
    p.sizeAfter b r = some r.size := by
  cases p <;> first | rfl | cases h

theorem sizeTaken_of_eq {r : OsRing} (hsize : r.size = 0) : sizeTaken r = r.size := by
  rw [sizeTaken, if_pos hsize, hsize]

theorem sizeTaken_of_ne {r : OsRing} (hsize : r.size ≠ 0) : sizeTaken r = r.popped.size :=
  if_neg hsize

/-- A task that has the mutex does what is expected of it. -/
theorem Step.sizeAfter_eq (h : Step b s a s') (hknows : Knows s.ring (s.pc a.actor))
    (hholds : (s.pc a.actor).holds = true) :
    (s'.pc a.actor).sizeAfter b s'.ring = (s.pc a.actor).sizeAfter b s.ring := by
  cases h
  case push u item r hpc hpush => simp [Act.actor, Pc.sizeAfter, hpc, hpush, Except.toOption]
  case loopWait u out tmo m hpc htmo hsize hunlock =>
    simp [Act.actor, Pc.sizeAfter, hpc, sizeTaken_of_eq hsize]
  case testNone u out hpc hsize => simp [Act.actor, Pc.sizeAfter, hpc, sizeTaken_of_eq hsize]
  case pop u out r hpc hpop =>
    obtain ⟨-, rfl⟩ := OsRing.popFront_eq_ok.mp hpop
    rw [Act.actor, hpc] at hknows
    simp [Act.actor, Pc.sizeAfter, hpc, sizeTaken_of_ne hknows.1]
  case frontNone u out hpc hfront =>
    -- the task has found the ring not to be empty
    rw [Act.actor, hpc] at hknows
    have hsome := OsRing.front_of_size_ne_zero (OsRing.toNat_ne_zero_iff.mpr hknows.2)
    cases hsome.symm.trans hfront
  all_goals simp_all [Act.actor, Pc.sizeAfter, Pc.holds]

omit [DecidableEq ι] in
theorem nextSize_of_owner {u : ι} (howner : s.mutex.owner = some u) :
    s.nextSize b = (s.pc u).sizeAfter b s.ring := by
  rw [Monitor.nextSize, howner]

omit [DecidableEq ι] in
theorem nextSize_of_free (hfree : s.mutex = .free) : s.nextSize b = some s.ring.size := by
  rw [Monitor.nextSize, hfree]
  rfl

/-- **How many messages there are when the mutex is free next** is settled: the task that has
it does not change that on its way to its unlock. -/
theorem nextSize_step (hinv : GetInv s) (h : Step b s a s')
    (howner : s.mutex.owner = some a.actor) : s'.nextSize b = s.nextSize b := by
  obtain ⟨hheld, hholds⟩ := hinv.owner.held howner
  rw [nextSize_of_owner howner, ← h.sizeAfter_eq (hinv.knows _) hholds]
  rcases h.mutex_cases with ⟨hsame, -⟩ | ⟨-, hfalse, -⟩ | ⟨hunlock, hplace⟩
  · rw [← hsame] at howner
    exact nextSize_of_owner howner
  · rw [hholds] at hfalse
    cases hfalse
  · rw [nextSize_of_free (hinv.owner.free_of_unlock hunlock), Pc.sizeAfter_of_not_holds hplace]

theorem offers_step_iff (hinv : GetInv s) (h : Step b s a s')
    (howner : s.mutex.owner = some a.actor) : s'.Offers b ↔ s.Offers b := by
  rw [Monitor.Offers, Monitor.Offers, nextSize_step hinv h howner]

omit [DecidableEq ι] in
theorem offers_of_free (hfree : s.mutex = .free) : s.Offers b ↔ s.ring.size ≠ 0 := by
  simp [Monitor.Offers, nextSize_of_free hfree]

/-! ## Calls that are not served -/

/-- Where a call may come to wait. -/
def Pc.mayWait : Pc → Prop
  | .getLock _ tmo | .getLoop _ tmo | .getWait _ tmo => tmo ≠ 0
  | _ => False

omit [DecidableEq ι] in
theorem mayWait_of_not_served (hget : (s.pc t).inTimedGet) (hserved : ¬Served b s t) :
    (s.pc t).mayWait := by
  unfold Served at hserved
  cases hpc : s.pc t <;> simp_all [Pc.inTimedGet, Pc.mayWait, POS_TIME_NO_WAIT]

/-- Only a signal takes another task out of the condition variable. -/
theorem Step.parked_of_ne (h : Step b s a s') (hparked : t ∈ s.condv) (hne : t ≠ a.actor)
    (hsignals : (s.pc a.actor).signals = false) : t ∈ s'.condv := by
  cases h
  case loopWait hpc htmo hsize hunlock => exact Finset.mem_insert_of_mem hparked
  case signal woken hpc hsub hsome =>
    rw [Act.actor, hpc] at hsignals
    cases hsignals
  case wake hparked' => exact Finset.mem_erase_of_ne_of_mem hne hparked
  case cancel hpending hpc => exact Finset.mem_erase_of_ne_of_mem hne hparked
  all_goals exact hparked

/-- A task that has the mutex does not begin another operation. -/
theorem Step.signals_actor (h : Step b s a s') (hholds : (s.pc a.actor).holds = true)
    (hsignals : (s.pc a.actor).signals = false) : (s'.pc a.actor).signals = false := by
  cases h <;> simp_all [Act.actor, Pc.holds, Pc.signals]

/-- A step of the call itself, which finds no message. -/
theorem unserved_step_self (hinv : GetInv s) (h : Step b s a s') (hactor : a.actor = t)
    (hregular : a.regular = true) (hunserved : ¬Served b s t) (hplace : (s.pc t).mayWait) :
    ¬Served b s' t ∧ (s'.pc t).mayWait := by
  subst hactor
  unfold Served at hunserved
  cases h
  case lockGet u out tmo m hpc hlock =>
    have hfree := hinv.owner.free_of_lock hlock (by rw [hpc]; rfl)
    simp_all [Act.actor, Served, offers_of_free, Pc.mayWait]
  case loopWait u out tmo m hpc htmo hsize hunlock =>
    have hfree := hinv.owner.free_of_unlock hunlock
    simp_all [Act.actor, Served, Pc.mayWait]
  case loopPass u out tmo hpc hpass => simp_all [Act.actor, Pc.mayWait]
  case relock u out tmo m hpc hwoken hlock =>
    have hfree := hinv.owner.free_of_lock hlock (by rw [hpc]; rfl)
    simp_all [Act.actor, Served, offers_of_free, Pc.mayWait]
  case cancel u out tmo hpending hpc =>
    rw [hinv.pending u] at hpending
    cases hpending
  case wake u hparked => cases hregular
  case remove u => cases hregular
  all_goals simp_all [Act.actor]

/-- A step of the task that has the mutex, on its way to its unlock. -/
theorem unserved_step_owner (hinv : GetInv s) (h : Step b s a s') (hne : t ≠ a.actor)
    (howner : s.mutex.owner = some a.actor) (hunserved : ¬Served b s t)
    (hplace : (s.pc t).mayWait) : ¬Served b s' t ∧ (s'.pc t).mayWait := by
  have hholds := (hinv.owner.held howner).2
  have hoffers := offers_step_iff hinv h howner
  unfold Served at hunserved ⊢
  rw [h.pc_of_ne hne]
  refine ⟨?_, hplace⟩
  cases hpc : s.pc t with
  | getLock out tmo =>
    simp only [hpc] at hunserved
    rwa [hoffers]
  | getLoop out tmo =>
    -- only one task has the mutex
    have hself := hinv.exclusive.unique (t := t) (by rw [hpc]; rfl) hholds
    exact absurd hself hne
  | getWait out tmo =>
    simp only [hpc] at hunserved
    rw [hoffers]
    rintro ⟨hmessage, hsignal⟩
    rw [not_and, Classical.not_imp] at hunserved
    obtain ⟨hparked, hnone⟩ := hunserved hmessage
    have hsignals : (s.pc a.actor).signals = false := by
      by_contra htrue
      exact hnone ⟨a.actor, howner, by simpa using htrue⟩
    obtain ⟨u, howner', hu⟩ := hsignal (h.parked_of_ne hparked hne hsignals)
    rcases h.mutex_cases with ⟨hsame, -⟩ | ⟨-, hfalse, -⟩ | ⟨hunlock, -⟩
    · rw [hsame, howner] at howner'
      cases howner'
      rw [h.signals_actor hholds hsignals] at hu
      cases hu
    · rw [hholds] at hfalse
      cases hfalse
    · rw [hinv.owner.free_of_unlock hunlock] at howner'
      cases howner'
  | _ =>
    rw [hpc] at hplace
    exact hplace.elim

/-- **A call that is not served stays so**, whatever it and the task that has the mutex do. -/
theorem unserved_path (hinv : GetInv s) (hunserved : ¬Served b s t) (hplace : (s.pc t).mayWait)
    (hpath : Relation.ReflTransGen (UnaidedStep b t) s s') :
    GetInv s' ∧ ¬Served b s' t ∧ (s'.pc t).mayWait := by
  induction hpath with
  | refl => exact ⟨hinv, hunserved, hplace⟩
  | tail _ hstep ih =>
    obtain ⟨hinv, hunserved, hplace⟩ := ih
    obtain ⟨-, a, h, hwho, hregular⟩ := hstep
    refine ⟨hinv.step h (Act.noRemove hregular), ?_⟩
    by_cases hactor : a.actor = t
    · exact unserved_step_self hinv h hactor hregular hunserved hplace
    · exact unserved_step_owner hinv h (Ne.symm hactor) (hwho.resolve_left hactor) hunserved hplace

/-! ## Calls that are served -/

/-- Past the loop of `RingPthread::get`. -/
def Pc.pastLoop : Pc → Bool
  | .getTest _ | .getFront _ | .getCopy _ _ | .getPop _ | .getUnlock _ _ | .getReturn _ _ => true
  | _ => false

theorem CanReturn.of_step (h : Step b s a s') (hrunning : s.halted = none)
    (hwho : a.actor = t ∨ s.mutex.owner = some a.actor) (hregular : a.regular = true)
    (hreturn : CanReturn b s' t) : CanReturn b s t := by
  obtain ⟨s₁, s₂, out, err, hpath, hreturns⟩ := hreturn
  exact ⟨s₁, s₂, out, err, .head ⟨hrunning, a, h, hwho, hregular⟩ hpath, hreturns⟩

/-- **Past its loop a call returns** by its own steps. -/
theorem canReturn_of_pastLoop (hinv : GetInv s) (hrunning : s.halted = none)
    (hplace : (s.pc t).pastLoop = true) : CanReturn b s t := by
  induction hn : (s.pc t).toUnlock using Nat.strong_induction_on generalizing s with
  | h n ih =>
    have hknows := hinv.knows t
    -- one statement, and then the rest
    have hadvance : ∀ {a s'}, Step b s a s' → a.actor = t → a.regular = true →
        s'.halted = none → (s'.pc t).pastLoop = true → (s'.pc t).toUnlock < n →
        CanReturn b s t := by
      intro a s' h hactor hregular hrunning' hplace' hless
      exact .of_step h hrunning (.inl hactor) hregular
        (ih _ hless (hinv.step h (Act.noRemove hregular)) hrunning' hplace' rfl)
    cases hpc : s.pc t with
    | getTest out =>
      by_cases hsize : s.ring.size = 0
      · exact hadvance (.testNone hpc hsize) rfl rfl hrunning (by simp [Pc.pastLoop])
          (by simp [← hn, hpc, Pc.toUnlock])
      · exact hadvance (.testSome hpc hsize) rfl rfl hrunning (by simp [Pc.pastLoop])
          (by simp [← hn, hpc, Pc.toUnlock])
    | getFront out =>
      rw [hpc] at hknows
      have hfront := OsRing.front_of_size_ne_zero (OsRing.toNat_ne_zero_iff.mpr hknows.2)
      exact hadvance (.frontSome hpc hfront) rfl rfl hrunning (by simp [Pc.pastLoop])
        (by simp [← hn, hpc, Pc.toUnlock])
    | getCopy out item =>
      rw [hpc] at hknows
      obtain ⟨hout, hsize, hfront⟩ := hknows
      have hcopy := memcpy_front_whole (hinv.frontFits hsize) hout hfront
      exact hadvance (.copy hpc hcopy) rfl rfl hrunning (by simp [Pc.pastLoop])
        (by simp [← hn, hpc, Pc.toUnlock])
    | getPop out =>
      rw [hpc] at hknows
      have hpop := OsRing.popFront_of_size_ne_zero b (OsRing.toNat_ne_zero_iff.mpr hknows.1)
      exact hadvance (.pop hpc hpop) rfl rfl hrunning (by simp [Pc.pastLoop])
        (by simp [← hn, hpc, Pc.toUnlock])
    | getUnlock out found =>
      have howner := hinv.exclusive.owner t (by rw [hpc]; rfl)
      have hunlock : s.mutex.unlock t = some s.mutex.release := if_pos howner
      exact hadvance (.unlockGet hpc hunlock) rfl rfl hrunning (by simp [Pc.pastLoop])
        (by simp [← hn, hpc, Pc.toUnlock])
    | getReturn out found =>
      refine ⟨s, _, out, _, .refl, hrunning, .returnGet hpc, ?_⟩
      cases found
      · exact .inr rfl
      · exact .inl rfl
    | _ =>
      rw [hpc] at hplace
      cases hplace

theorem canReturn_of_getLoop (hinv : GetInv s) (hrunning : s.halted = none) {out : List UInt8}
    {tmo : UInt32} (hpc : s.pc t = .getLoop out tmo) (hsize : s.ring.size ≠ 0) :
    CanReturn b s t := by
  have h : Step b s (.loop t) (s.goto t (.getTest out)) := .loopPass hpc (.inr hsize)
  refine .of_step h hrunning (.inl rfl) rfl ?_
  exact canReturn_of_pastLoop (hinv.step h (Act.noRemove rfl)) hrunning (by simp [Pc.pastLoop])

/-- The task has yet to lock the mutex, and nothing else keeps it. -/
def ReadyToLock (s : Monitor ι) (t : ι) : Prop :=
  match s.pc t with
  | .getLock _ _ => True
  | .getWait _ _ => t ∉ s.condv
  | _ => False

omit [DecidableEq ι] in
theorem ReadyToLock.not_holds (hready : ReadyToLock s t) : (s.pc t).holds = false := by
  unfold ReadyToLock at hready
  cases hpc : s.pc t <;> simp_all [Pc.holds]

/-- With the mutex free and a message there, the call returns by its own steps. -/
theorem canReturn_of_free (hinv : GetInv s) (hrunning : s.halted = none)
    (hready : ReadyToLock s t) (hfree : s.mutex = .free) (hsize : s.ring.size ≠ 0) :
    CanReturn b s t := by
  have hlock : s.mutex.lock mutexLimit t = some (.held t 0) :=
    RecLock.lock_eq_some.mpr ⟨.inl hfree, by simp [hfree, mutexLimit], by rw [hfree]; rfl⟩
  unfold ReadyToLock at hready
  cases hpc : s.pc t with
  | getLock out tmo =>
    have h : Step b s (.lock t) _ := .lockGet hpc hlock
    refine .of_step h hrunning (.inl rfl) rfl ?_
    exact canReturn_of_getLoop (hinv.step h (Act.noRemove rfl)) hrunning
      (Monitor.goto_pc_self _ _ _) hsize
  | getWait out tmo =>
    simp only [hpc] at hready
    have h : Step b s (.relock t) _ := .relock hpc hready hlock
    refine .of_step h hrunning (.inl rfl) rfl ?_
    exact canReturn_of_getLoop (hinv.step h (Act.noRemove rfl)) hrunning
      (Monitor.goto_pc_self _ _ _) hsize
  | _ =>
    simp only [hpc] at hready

/-- The task that has the mutex does not end the process on its way to its unlock, if it is
settled how many messages there are then. -/
theorem not_halted_step (hinv : GetInv s) (h : Step b s a s')
    (howner : s.mutex.owner = some a.actor) (hoffers : s.Offers b) : s'.halted = s.halted := by
  obtain ⟨n, hnext, -⟩ := hoffers
  rw [nextSize_of_owner howner] at hnext
  have hknows := hinv.knows a.actor
  cases h
  case pushHalt u item e hpc hpush =>
    rw [Act.actor, hpc, Pc.sizeAfter, hpush] at hnext
    cases hnext
  case copyHalt u out item e hpc hcopy =>
    rw [Act.actor, hpc] at hknows
    obtain ⟨hout, hsize, hfront⟩ := hknows
    cases (memcpy_front_whole (hinv.frontFits hsize) hout hfront).symm.trans hcopy
  case popHalt u out e hpc hpop =>
    rw [Act.actor, hpc] at hknows
    have hpopped := OsRing.popFront_of_size_ne_zero b (OsRing.toNat_ne_zero_iff.mpr hknows.1)
    cases hpopped.symm.trans hpop
  all_goals rfl

/-- A call that is about to lock the mutex, and is going to find a message. -/
structure Hopeful (b : Build) (t : ι) (s : Monitor ι) : Prop where
  inv : GetInv s
  running : s.halted = none
  offers : s.Offers b
  ready : ReadyToLock s t

/-- The other task's steps do not concern it. -/
theorem Hopeful.step (hhope : Hopeful b t s) (h : Step b s a s')
    (howner : s.mutex.owner = some a.actor) (hregular : a.regular = true) : Hopeful b t s' := by
  have hne : t ≠ a.actor := by
    intro hself
    have hplace := hhope.ready.not_holds
    rw [hself, (hhope.inv.owner.held howner).2] at hplace
    cases hplace
  refine ⟨hhope.inv.step h (Act.noRemove hregular), ?_, ?_, ?_⟩
  · rw [not_halted_step hhope.inv h howner hhope.offers]
    exact hhope.running
  · exact (offers_step_iff hhope.inv h howner).mpr hhope.offers
  · have hready := hhope.ready
    unfold ReadyToLock at hready ⊢
    rw [h.pc_of_ne hne]
    cases hpc : s.pc t with
    | getLock out tmo => trivial
    | getWait out tmo =>
      simp only [hpc] at hready
      intro hparked
      rcases h.condv_cases hparked with hbefore | ⟨hself, -⟩
      · exact hready hbefore
      · exact hne hself
    | _ => simp only [hpc] at hready

/-- The task that has the mutex can take a step towards its unlock. -/
theorem exists_owner_step (hinv : GetInv s) (hrunning : s.halted = none) {u : ι}
    (howner : s.mutex.owner = some u) :
    ∃ a s', Step b s a s' ∧ a.actor = u ∧ a.regular = true ∧
      (s'.mutex = .free ∨ s'.halted ≠ none ∨ Closer u s s') := by
  obtain ⟨hheld, hholds⟩ := hinv.owner.held howner
  obtain ⟨s', ⟨-, a, hactor, h⟩, hcloser⟩ := owner_step b hrunning hheld hholds
  refine ⟨a, s', h, hactor, ?_, hcloser⟩
  subst hactor
  cases h
  case wake v hparked =>
    -- who is parked does not have the mutex
    have hwaits := hinv.exclusive.parked v hparked
    rw [Act.actor] at hholds
    cases hpc : s.pc v <;> simp [hpc, Pc.holds, Pc.waits] at hholds hwaits
  case remove v =>
    -- a removal brings nobody closer
    rcases hcloser with hfree | hhalted | hcloser
    · rw [hheld] at hfree
      cases hfree
    · exact absurd hrunning hhalted
    · exact absurd hcloser.toUnlock (Nat.lt_irrefl _)
  all_goals rfl

/-- How far the task that has the mutex is from its unlock. -/
def Monitor.toUnlock (s : Monitor ι) : ℕ :=
  match s.mutex.owner with
  | none => 0
  | some u => (s.pc u).toUnlock

/-- The call has only to wait for the mutex, which its owner comes to unlock. -/
theorem canReturn_of_hopeful (hhope : Hopeful b t s) : CanReturn b s t := by
  have hpath : ∃ s', Relation.ReflTransGen (UnaidedStep b t) s s' ∧
      (Hopeful b t s' ∧ s'.mutex = .free) := by
    refine exists_path_of_closer (I := Hopeful b t) Monitor.toUnlock ?_ hhope
    intro s hhope hgoal
    cases howner : s.mutex.owner with
    | none =>
      have hfree : s.mutex = .free := by
        cases hmutex : s.mutex with
        | free => rfl
        | held u n =>
          rw [hmutex] at howner
          cases howner
      exact absurd ⟨hhope, hfree⟩ hgoal
    | some u =>
      obtain ⟨a, s', h, hactor, hregular, hcloser⟩ :=
        exists_owner_step hhope.inv hhope.running howner
      subst hactor
      have hhope' := hhope.step h howner hregular
      refine ⟨s', ⟨hhope.running, a, h, .inr howner, hregular⟩, ?_⟩
      rcases hcloser with hfree | hhalted | hcloser
      · exact .inl ⟨hhope', hfree⟩
      · exact absurd hhope'.running hhalted
      · refine .inr ⟨hhope', ?_⟩
        have howner' : s'.mutex.owner = some a.actor := by rw [hcloser.mutex, howner]
        simp only [Monitor.toUnlock, howner, howner']
        exact hcloser.toUnlock
  obtain ⟨s', hleads, hhope', hfree⟩ := hpath
  obtain ⟨s₁, s₂, out, err, hpath, hreturns⟩ := canReturn_of_free hhope'.inv hhope'.running
    hhope'.ready hfree ((offers_of_free hfree).mp hhope'.offers)
  exact ⟨s₁, s₂, out, err, hleads.trans hpath, hreturns⟩

/-- A parked call is woken by the signal of a `put` that is under way. -/
theorem canReturn_of_signal (hinv : GetInv s) (hrunning : s.halted = none) {out : List UInt8}
    {tmo : UInt32} (hpc : s.pc t = .getWait out tmo) (hoffers : s.Offers b) {u : ι}
    (howner : s.mutex.owner = some u) (hu : s.pc u = .putSignal) : CanReturn b s t := by
  have hne : t ≠ u := by
    rintro rfl
    rw [hpc] at hu
    cases hu
  have h : Step b s (.signal u s.condv) _ := .signal hu subset_rfl id
  refine .of_step h hrunning (.inr howner) rfl (canReturn_of_hopeful ?_)
  refine ⟨hinv.step h (Act.noRemove rfl), hrunning, ?_, ?_⟩
  · exact (offers_step_iff hinv h howner).mpr hoffers
  · simp [ReadyToLock, Monitor.goto_pc_of_ne _ _ _ hne, hpc]

/-- It may have to put its message first. -/
theorem canReturn_of_put (hinv : GetInv s) (hrunning : s.halted = none) {out : List UInt8}
    {tmo : UInt32} (hpc : s.pc t = .getWait out tmo) (hoffers : s.Offers b) {u : ι}
    (howner : s.mutex.owner = some u) {item : List UInt8} (hu : s.pc u = .putPush item) :
    CanReturn b s t := by
  have hne : t ≠ u := by
    rintro rfl
    rw [hpc] at hu
    cases hu
  cases hpush : s.ring.pushBack b item with
  | error e =>
    obtain ⟨n, hnext, -⟩ := hoffers
    rw [nextSize_of_owner howner, hu, Pc.sizeAfter, hpush] at hnext
    cases hnext
  | ok r =>
    have h : Step b s (.push u item) _ := .push hu hpush
    refine .of_step h hrunning (.inr howner) rfl ?_
    have hoffers' : Monitor.Offers b ({ s with ring := r }.goto u .putSignal) :=
      (offers_step_iff hinv h howner).mpr hoffers
    have hpc' : ({ s with ring := r }.goto u .putSignal).pc t = .getWait out tmo := by
      rw [Monitor.goto_pc_of_ne _ _ _ hne]
      exact hpc
    exact canReturn_of_signal (hinv.step h (Act.noRemove rfl)) hrunning hpc' hoffers' howner
      (Monitor.goto_pc_self _ _ _)

theorem canReturn_of_served (hinv : GetInv s) (hrunning : s.halted = none)
    (hget : (s.pc t).inTimedGet) (hserved : Served b s t) : CanReturn b s t := by
  unfold Served at hserved
  cases hpc : s.pc t with
  | getLock out tmo =>
    simp only [hpc] at hserved
    exact canReturn_of_hopeful ⟨hinv, hrunning, hserved, by simp [ReadyToLock, hpc]⟩
  | getLoop out tmo =>
    simp only [hpc] at hserved
    exact canReturn_of_getLoop hinv hrunning hpc hserved
  | getWait out tmo =>
    simp only [hpc] at hserved
    obtain ⟨hoffers, hsignal⟩ := hserved
    by_cases hparked : t ∈ s.condv
    · obtain ⟨u, howner, hu⟩ := hsignal hparked
      cases hpc' : s.pc u with
      | putPush item => exact canReturn_of_put hinv hrunning hpc hoffers howner hpc'
      | putSignal => exact canReturn_of_signal hinv hrunning hpc hoffers howner hpc'
      | _ =>
        rw [hpc'] at hu
        cases hu
    · exact canReturn_of_hopeful
        ⟨hinv, hrunning, hoffers, by simpa [ReadyToLock, hpc] using hparked⟩
  | getTest _ | getFront _ | getCopy _ _ | getPop _ | getUnlock _ _ | getReturn _ _ =>
    exact canReturn_of_pastLoop hinv hrunning (by rw [hpc]; rfl)
  | _ =>
    rw [hpc] at hget
    exact hget.elim

/-- A call that is not served does not get as far as its return. -/
theorem not_canReturn (hinv : GetInv s) (hget : (s.pc t).inTimedGet) (hserved : ¬Served b s t) :
    ¬CanReturn b s t := by
  rintro ⟨s₁, s₂, out, err, hpath, -, hreturns, -⟩
  obtain ⟨-, -, hplace⟩ := unserved_path hinv hserved (mayWait_of_not_served hget hserved) hpath
  cases hreturns
  case returnGet found hpc =>
    rw [hpc] at hplace
    exact hplace

/-! ## The defect -/

/-- A task calls `pos_queue_get` on an empty queue, with a timeout of five milliseconds. -/
theorem get_never_returns :
    ¬∀ (s : Monitor Unit) (t : Unit), (ringPthread Unit ⟨false⟩ 1 2).ReachableWhen NoRemove s →
      s.halted = none → (s.pc t).inTimedGet → CanReturn ⟨false⟩ s t := by
  intro halways
  have h0 : (ringPthread Unit ⟨false⟩ 1 2).Run NoRemove [] _ :=
    .start (init_start ⟨false⟩ .zeroed 1 2 rfl)
  have h1 := h0.next (.callGet () [0] 5) nofun ⟨rfl, .callGet rfl rfl⟩
  have hreturn := halways _ () ⟨_, h1⟩ rfl ⟨by decide, by decide⟩
  refine not_canReturn (t := ()) (GetInv.of_reachable ⟨_, h1⟩) ⟨by decide, by decide⟩ ?_ hreturn
  -- the mutex is free and the ring is empty
  rintro ⟨n, hnext, hn⟩
  cases hnext
  exact hn rfl

/-! ## The calls that can return -/

/-- **A call can return without another task exactly if** it is served: it is past its loop, or
there is a message for it, counting what the task that has the mutex puts or takes, and a signal
if it is parked. -/
theorem can_return_iff
    (hreach : (ringPthread ι b itemSize itemCount).ReachableWhen NoRemove s)
    (hrunning : s.halted = none) (hget : (s.pc t).inTimedGet) :
    CanReturn b s t ↔ Served b s t := by
  have hinv := GetInv.of_reachable hreach
  constructor
  · intro hreturn
    by_contra hserved
    exact not_canReturn hinv hget hserved hreturn
  · intro hserved
    exact canReturn_of_served hinv hrunning hget hserved

/-- A call on a queue with one message. -/
theorem can_return_iff_message :
    ∃ s : Monitor Bool, s.pc true = .getLock [0] 5 ∧ s.ring.contents = [[7]] ∧
      (CanReturn ⟨false⟩ s true ↔ Served ⟨false⟩ s true) := by
  have h0 : (ringPthread Bool ⟨false⟩ 1 2).Run NoRemove [] _ :=
    .start (init_start ⟨false⟩ .zeroed 1 2 rfl)
  have h1 := h0.next (.callPut false [7]) nofun ⟨rfl, .callPut rfl rfl⟩
  have h2 := h1.next (.lock false) nofun ⟨rfl, .lockPut rfl rfl⟩
  have h3 := h2.next (.push false [7]) nofun ⟨rfl, .push rfl rfl⟩
  have h4 := h3.next (.signal false ∅) nofun ⟨rfl, .signal rfl (by decide) fun _ => rfl⟩
  have h5 := h4.next (.unlock false) nofun ⟨rfl, .unlockPut rfl rfl⟩
  have h6 := h5.next (.callGet true [0] 5) nofun ⟨rfl, .callGet rfl rfl⟩
  exact ⟨_, rfl, rfl, can_return_iff ⟨_, h6⟩ rfl ⟨by decide, by decide⟩⟩

end Poski.Posix
