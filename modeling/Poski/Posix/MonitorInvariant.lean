import Poski.Posix.RingPthread
import Poski.Ring.Overwrite

/-!
# Mutual Exclusion in the Monitor

Every statement that touches the ring stands between `pthread_mutex_lock` and
`pthread_mutex_unlock`, or between the two halves of a wait. What a step can do to the
mutex, to the condition variable and to the ring is said once here; from it follow

- `Exclusive` : a task at a statement that needs the mutex owns it,
- `RingStable` : what a task has found out about the ring while it holds the mutex stays
  true until it changes the ring itself.
-/

namespace Poski.Posix

open Lib

universe u

variable {ι : Type u} [DecidableEq ι] {b : Build}

/-! ## Places -/

/-- The places between lock and unlock. -/
def Pc.holds : Pc → Bool
  | .putPush _ | .putSignal | .putUnlock | .getLoop _ _ | .getTest _ | .getFront _
  | .getCopy _ _ | .getPop _ | .getUnlock _ _ | .sizeRead | .sizeUnlock _ => true
  | _ => false

/-- Inside `pthread_cond_wait`. -/
def Pc.waits : Pc → Bool
  | .getWait _ _ => true
  | _ => false

/-- The task that a step happens to. -/
def Act.actor : Act ι → ι
  | .callPut t _ | .callGet t _ _ | .callIsEmpty t | .lock t | .push t _ | .signal t _
  | .loop t | .wake t | .relock t | .test t | .front t | .copy t | .pop t _ | .read t
  | .unlock t | .returnPut t _ | .returnGet t _ _ | .returnIsEmpty t _ | .remove t
  | .cancel t | .cancelRelock t | .exit t => t

namespace Monitor

variable (s : Monitor ι) (t : ι) (p : Pc)

@[simp] theorem goto_ring : (s.goto t p).ring = s.ring := rfl
@[simp] theorem goto_mutex : (s.goto t p).mutex = s.mutex := rfl
@[simp] theorem goto_condv : (s.goto t p).condv = s.condv := rfl
@[simp] theorem goto_pending : (s.goto t p).pending = s.pending := rfl
@[simp] theorem goto_halted : (s.goto t p).halted = s.halted := rfl
@[simp] theorem goto_pc_self : (s.goto t p).pc t = p := by simp [goto]

theorem goto_pc_of_ne {u : ι} (h : u ≠ t) : (s.goto t p).pc u = s.pc u := by
  simp [goto, h]

end Monitor

/-! ## What a step can do -/

variable {s s' : Monitor ι} {a : Act ι}

/-- Only the actor moves. -/
theorem Step.pc_of_ne (h : Step b s a s') {u : ι} (hu : u ≠ a.actor) : s'.pc u = s.pc u := by
  cases h <;> first | rfl | exact Monitor.goto_pc_of_ne _ _ _ hu

/-- The mutex changes only by the actor's locking and unlocking, which lead between the
places that need it and the others. Only a cancelled task locks it for nothing. -/
theorem Step.mutex_cases (h : Step b s a s') :
    (s'.mutex = s.mutex ∧ (s'.pc a.actor).holds = (s.pc a.actor).holds) ∨
      (s.mutex.lock mutexLimit a.actor = some s'.mutex ∧ (s.pc a.actor).holds = false ∧
        ((s'.pc a.actor).holds = true ∨ s.pc a.actor = .cancelled)) ∨
      (s.mutex.unlock a.actor = some s'.mutex ∧ (s'.pc a.actor).holds = false) := by
  cases h
  case lockPut hpc hlock | lockGet hpc hlock | relock hpc _ hlock | lockSize hpc hlock |
      cancelRelock hpc hlock =>
    exact .inr (.inl ⟨hlock, by simp [Act.actor, Pc.holds, hpc]⟩)
  case unlockPut hunlock | loopWait hunlock | unlockGet hunlock | unlockSize hunlock =>
    exact .inr (.inr ⟨hunlock, by simp [Act.actor, Pc.holds]⟩)
  all_goals
    left
    simp_all [Act.actor, Pc.holds]

/-- A task enters the condition variable only by waiting. -/
theorem Step.condv_cases (h : Step b s a s') {u : ι} (hu : u ∈ s'.condv) :
    u ∈ s.condv ∨ (u = a.actor ∧ (s'.pc u).waits = true) := by
  cases h
  case loopWait out tmo m hpc htmo hsize hunlock =>
    rcases Finset.mem_insert.mp hu with rfl | hu
    · exact .inr ⟨rfl, by simp [Pc.waits]⟩
    · exact .inl hu
  case signal woken hpc hsub hsome => exact .inl (Finset.mem_sdiff.mp hu).1
  case wake hparked => exact .inl (Finset.mem_of_mem_erase hu)
  case cancel hpending hpc => exact .inl (Finset.mem_of_mem_erase hu)
  all_goals exact .inl hu

/-- A waiting task moves on only when it is no longer parked. -/
theorem Step.parked_actor (h : Step b s a s') (hw : (s.pc a.actor).waits = true)
    (hparked : a.actor ∈ s'.condv) : (s'.pc a.actor).waits = true := by
  cases h
  case relock hpc hwoken hlock => exact absurd hparked hwoken
  case cancel hpending hpc => exact absurd hparked (Finset.notMem_erase _ _)
  all_goals first
    | exact hw
    | simp_all [Act.actor, Pc.waits]

/-- The ring changes only in `push_back` and `pop_front`. -/
theorem Step.ring_cases (h : Step b s a s') :
    s'.ring = s.ring ∨
      (∃ t item, a = .push t item ∧ s.pc t = .putPush item ∧
        s.ring.pushBack b item = .ok s'.ring) ∨
      (∃ t out, a = .pop t out ∧ s.pc t = .getPop out ∧ s.ring.popFront b = .ok s'.ring) := by
  cases h
  case push t item r hpc hpush => exact .inr (.inl ⟨t, item, rfl, hpc, hpush⟩)
  case pop t out r hpc hpop => exact .inr (.inr ⟨t, out, rfl, hpc, hpop⟩)
  all_goals exact .inl rfl

/-- No task is removed. -/
def NoRemove (_ : Monitor ι) (a : Act ι) : Prop := ∀ t, a ≠ .remove t

/-- Only a removal marks a task. -/
theorem Step.pending_eq (h : Step b s a s') (hremove : ∀ t, a ≠ .remove t) :
    s'.pending = s.pending := by
  cases h
  case remove u => exact absurd rfl (hremove u)
  all_goals rfl

/-! ## Exclusion -/

/-- A task at a place that needs the mutex owns it, and only waiting tasks are parked. -/
structure Exclusive (s : Monitor ι) : Prop where
  owner : ∀ t, (s.pc t).holds = true → s.mutex.owner = some t
  parked : ∀ t ∈ s.condv, (s.pc t).waits = true

omit [DecidableEq ι] in
/-- **Mutual exclusion**: two tasks at places that need the mutex are one task. -/
theorem Exclusive.unique (h : Exclusive s) {t u : ι} (ht : (s.pc t).holds = true)
    (hu : (s.pc u).holds = true) : t = u := by
  have htu := (h.owner t ht).symm.trans (h.owner u hu)
  exact Option.some_inj.mp htu

theorem Exclusive.step (hinv : Exclusive s) (h : Step b s a s') : Exclusive s' where
  owner u hu := by
    by_cases hactor : u = a.actor
    · subst hactor
      rcases h.mutex_cases with ⟨hsame, hplace⟩ | ⟨hlock, -⟩ | ⟨-, hfalse⟩
      · rw [hsame]
        exact hinv.owner _ (hplace ▸ hu)
      · obtain ⟨-, -, heq⟩ := RecLock.lock_eq_some.mp hlock
        rw [heq]
        rfl
      · rw [hfalse] at hu
        exact absurd hu Bool.false_ne_true
    · rw [h.pc_of_ne hactor] at hu
      have howner := hinv.owner u hu
      rcases h.mutex_cases with ⟨hsame, -⟩ | ⟨hlock, -⟩ | ⟨hunlock, -⟩
      · rwa [hsame]
      -- locking and unlocking make no other task the owner
      · rwa [RecLock.owner_lock_of_ne hlock hactor]
      · rwa [RecLock.owner_unlock_of_ne hunlock hactor]
  parked u hu := by
    rcases h.condv_cases hu with hold | ⟨-, hwaits⟩
    · have hwaits := hinv.parked u hold
      by_cases hactor : u = a.actor
      · subst hactor
        exact h.parked_actor hwaits hu
      · rwa [h.pc_of_ne hactor]
    · exact hwaits

/-! ## What a task knows about the ring -/

/-- What the local variables of a task at `p` say about the ring: buffers have the size
of a message, and behind `size()`, `front()` and `memcpy` the value read is still good. -/
def Knows (r : OsRing) : Pc → Prop
  | .putLock item | .putPush item => item.length = r.itemSize.toNat
  | .getLock out _ | .getLoop out _ | .getWait out _ | .getTest out =>
    out.length = r.itemSize.toNat
  | .getFront out => out.length = r.itemSize.toNat ∧ r.size ≠ 0
  | .getCopy out item => out.length = r.itemSize.toNat ∧ r.size ≠ 0 ∧ r.front = some item
  | .getPop out => r.size ≠ 0 ∧ r.slot r.readIndex = out
  | _ => True

/-- Outside the critical sections only the message size matters, which never changes. -/
theorem Knows.of_not_holds {r r' : OsRing} {p : Pc} (h : Knows r p) (hp : p.holds = false)
    (hsize : r'.itemSize = r.itemSize) : Knows r' p := by
  cases p <;> simp_all [Knows, Pc.holds]

/-- The ring is valid and all tasks know what their place says. -/
structure RingStable (s : Monitor ι) : Prop where
  valid : s.ring.Valid
  knows : ∀ t, Knows s.ring (s.pc t)

/-- The condition under which a queue is used: no `push_back` meets a full ring. -/
def NoFullPut (s : Monitor ι) : Act ι → Prop
  | .push _ _ => s.ring.full = false
  | _ => True

theorem room_of_not_full {r : OsRing} (hr : r.Valid) (hfull : r.full = false) :
    r.size.toNat < r.itemCount.toNat := by
  have hne : r.size.toNat ≠ r.itemCount.toNat := by
    rw [ne_eq, ← OsRing.full_iff, hfull]
    exact Bool.false_ne_true
  have := hr.size_le
  omega

/-- A buffer of the size of a message receives the oldest message, whole. -/
theorem memcpy_front_whole {r : OsRing} {out : List UInt8} {item : ℕ}
    (hfits : r.offset r.readIndex + r.itemSize.toNat ≤ r.buffer.length)
    (hout : out.length = r.itemSize.toNat) (hfront : r.front = some item) :
    memcpy out 0 (r.buffer.drop item) r.itemSize.toNat = .ok (r.slot r.readIndex) := by
  rw [OsRing.memcpy_front hfits hout.ge hfront, ← hout, List.drop_length, List.append_nil]

/-- The size of a message never changes. -/
theorem Step.itemSize_eq (h : Step b s a s') : s'.ring.itemSize = s.ring.itemSize := by
  rcases h.ring_cases with hsame | ⟨t, item, -, -, hpush⟩ | ⟨t, out, -, -, hpop⟩
  · rw [hsame]
  · obtain ⟨-, -, heq⟩ := OsRing.pushBack_eq_ok.mp hpush
    rw [heq, OsRing.pushed_itemSize]
  · obtain ⟨-, heq⟩ := OsRing.popFront_eq_ok.mp hpop
    rw [heq, OsRing.popped_itemSize]

/-- The oldest message, if there is one, lies inside the buffer. -/
def FrontFits (r : OsRing) : Prop :=
  r.size ≠ 0 → r.offset r.readIndex + r.itemSize.toNat ≤ r.buffer.length

/-- Where the actor goes, it knows what its new place says. -/
theorem Step.knows_actor (hfits : FrontFits s.ring) (hknows : Knows s.ring (s.pc a.actor))
    (h : Step b s a s') : Knows s'.ring (s'.pc a.actor) := by
  have hitemSize := h.itemSize_eq
  cases h
  case copy t out out' item hpc hcopy =>
    rw [Act.actor, hpc] at hknows
    obtain ⟨hout, hsize, hfront⟩ := hknows
    cases (memcpy_front_whole (hfits hsize) hout hfront).symm.trans hcopy
    simp [Act.actor, Knows, hsize]
  all_goals simp_all [Act.actor, Knows]

/-- All tasks go on to know what their places say. -/
theorem Step.knows (hexcl : Exclusive s) (hfits : FrontFits s.ring)
    (hknows : ∀ t, Knows s.ring (s.pc t)) (h : Step b s a s') (u : ι) :
    Knows s'.ring (s'.pc u) := by
  by_cases hu : u = a.actor
  · rw [hu]
    exact h.knows_actor hfits (hknows _)
  · rw [h.pc_of_ne hu]
    -- if the ring has changed, the actor held the mutex and `u` did not
    rcases h.ring_cases with hsame | ⟨t, item, rfl, hpc, -⟩ | ⟨t, out, rfl, hpc, -⟩
    · rw [hsame]
      exact hknows u
    all_goals
      refine (hknows u).of_not_holds ?_ h.itemSize_eq
      rw [Bool.eq_false_iff]
      intro hholds
      exact hu (hexcl.unique hholds (by simp only [Act.actor, hpc]; rfl))

/-- The ring stays valid. -/
theorem RingStable.valid_step (hinv : RingStable s) (h : Step b s a s') (hcond : NoFullPut s a) :
    s'.ring.Valid := by
  have hvalid := hinv.valid
  rcases h.ring_cases with hsame | ⟨t, item, rfl, hpc, hpush⟩ | ⟨t, out, rfl, hpc, hpop⟩
  · rwa [hsame]
  · have hknows := hinv.knows t
    rw [hpc] at hknows
    obtain ⟨hok, hvalid', -⟩ :=
      hvalid.pushBack_spec (b := b) (Nat.le_of_eq hknows.symm) (room_of_not_full hvalid hcond)
    rwa [Except.ok.inj (hpush.symm.trans hok)]
  · have hknows := hinv.knows t
    rw [hpc] at hknows
    have hsome := OsRing.toNat_ne_zero_iff.mpr hknows.1
    obtain ⟨hok, hvalid', -⟩ := hvalid.popFront_spec (b := b) hsome
    rwa [Except.ok.inj (hpop.symm.trans hok)]

theorem RingStable.step (hexcl : Exclusive s) (hinv : RingStable s) (h : Step b s a s')
    (hcond : NoFullPut s a) : RingStable s' where
  valid := hinv.valid_step h hcond
  knows := h.knows hexcl (fun _ => hinv.valid.offset_add_le _) hinv.knows

/-! ## Both invariants, over runs -/

/-- What holds of every state that a queue used under `NoFullPut` reaches. -/
structure MonitorInv (s : Monitor ι) : Prop where
  exclusive : Exclusive s
  stable : RingStable s

variable {itemSize itemCount : UInt16}

theorem exclusive_init (h : (ringPthread ι b itemSize itemCount).init s) : Exclusive s := by
  obtain ⟨-, -, hcondv, hidle, -, -⟩ := h
  refine ⟨fun t ht => ?_, fun t ht => ?_⟩
  · rw [hidle t] at ht
    cases ht
  · rw [hcondv] at ht
    cases ht

theorem MonitorInv.init (hcount : b.ndebug = true → OsRing.countOk itemCount = true)
    (h : (ringPthread ι b itemSize itemCount).init s) : MonitorInv s := by
  refine ⟨exclusive_init h, ?_⟩
  obtain ⟨⟨heap, hnew⟩, -, -, hidle, -, -⟩ := h
  refine ⟨(OsRing.construct_spec (OsRing.countOk_of_construct hcount hnew) hnew).1, fun t => ?_⟩
  rw [hidle t]
  trivial

theorem MonitorInv.step (hinv : MonitorInv s) (h : Step b s a s') (hcond : NoFullPut s a) :
    MonitorInv s' :=
  ⟨hinv.exclusive.step h, hinv.stable.step hinv.exclusive h hcond⟩

end Poski.Posix
