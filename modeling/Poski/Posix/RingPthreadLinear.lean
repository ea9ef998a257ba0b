import Poski.Lib.Linearizability
import Poski.Posix.MonitorInvariant
import Poski.Posix.Queue

/-!
# The POSIX Queue is Linearizable

The monitor executes `pos_queue_put`, `pos_queue_get` and `pos_queue_is_empty` statement by
statement, and `Posix.Queue` executes each of them as a whole. A `put` takes effect with its
`push_back`, a `get` with its `pop_front` or with the test that finds the queue empty, and
`pos_queue_is_empty` where it reads the size. Between its lock and its unlock a task's
statements are therefore one call, whatever the other tasks do: also if tasks are removed,
woken without a signal, or overwrite messages in a full ring.

## Main results

- `Pc.Stands` : how far the operation of a task is
- `atomicObject_simulates_monitor` : the simulation
- `ringPthread_linearizable` : all runs are linearizable
-/

namespace Poski.Posix

open Lib

universe u

/-! ## Calls and replies -/

/-- A call of one of the queue's operations. -/
inductive QueueCall where
  | put (item : List UInt8)
  | get (out : List UInt8) (tmo : UInt32)
  | isEmpty
  deriving DecidableEq, Repr

/-- What it returns; `out` is what a `get` leaves in its caller's buffer. -/
inductive QueueReply where
  | put (err : PosError)
  | get (out : List UInt8) (err : PosError)
  | isEmpty (result : Bool)
  deriving DecidableEq, Repr

/-- A call as a whole. -/
def posQueueCall (b : Build) (msgq : PosQueue) : QueueCall → Except Halt (PosQueue × QueueReply)
  | .put item => do
    let (msgq, err, _) ← posQueuePut b msgq item
    return (msgq, .put err)
  | .get out tmo => do
    let (msgq, out, err) ← posQueueGet b msgq out tmo
    return (msgq, .get out err)
  | .isEmpty => do
    let result ← posQueueIsEmpty msgq
    return (msgq, .isEmpty result)

/-- The calls and replies among the steps of the monitor. -/
def Act.seen {ι : Type u} : Act ι → Option (HistoryEvent ι QueueCall QueueReply)
  | .callPut t item => some (.call t (.put item))
  | .callGet t out tmo => some (.call t (.get out tmo))
  | .callIsEmpty t => some (.call t .isEmpty)
  | .returnPut t err => some (.reply t (.put err))
  | .returnGet t out err => some (.reply t (.get out err))
  | .returnIsEmpty t result => some (.reply t (.isEmpty result))
  | _ => none

/-! ## How far an operation is -/

/-- What a task's place says about its operation. Past its loop, a `get` may wait only if it
has seen a message. -/
def Pc.Stands (r : OsRing) : Pc → OpPhase QueueCall QueueReply → Prop
  | .idle, p => p = .idle
  | .putLock item, p | .putPush item, p => p = .called (.put item)
  | .putSignal, p | .putUnlock, p | .putReturn, p => p = .done (.put .ok)
  | .getLock out tmo, p | .getLoop out tmo, p | .getWait out tmo, p => p = .called (.get out tmo)
  | .getTest out, p => ∃ tmo, p = .called (.get out tmo) ∧ (tmo = 0 ∨ r.size ≠ 0)
  | .getFront out, p | .getCopy out _, p => ∃ tmo, p = .called (.get out tmo)
  | .getPop _, p => ∃ out tmo, p = .called (.get out tmo) ∧ out.length = r.itemSize.toNat
  | .getUnlock out found, p | .getReturn out found, p =>
    p = .done (.get out (if found then .ok else .timeout))
  | .sizeLock, p | .sizeRead, p => p = .called .isEmpty
  | .sizeUnlock n, p | .sizeReturn n, p => p = .done (.isEmpty (n == 0))
  | .cancelled, _ | .terminated, _ => True

/-- Outside the critical sections it does not depend on the ring. -/
theorem Pc.Stands.of_not_holds {r r' : OsRing} {pc : Pc} {p : OpPhase QueueCall QueueReply}
    (h : pc.Stands r p) (hpc : pc.holds = false) : pc.Stands r' p := by
  cases pc <;> simp_all [Pc.Stands, Pc.holds]

/-! ## Rings under every use -/

/-- The buffer has its length, and whatever has been stored lies inside it. -/
structure RingFits (r : OsRing) : Prop where
  allocated : r.Allocated
  slot : r.size ≠ 0 → r.itemSize = 0 ∨ r.itemCount ≠ 0

theorem RingFits.front {r : OsRing} (h : RingFits r) : FrontFits r := fun hsize =>
  (h.allocated.offset_add_le_iff _).mpr (h.slot hsize)

/-- What holds in every run, whatever the tasks do. -/
structure SharedInv {ι : Type u} (s : Monitor ι) : Prop where
  exclusive : Exclusive s
  fits : RingFits s.ring
  knows : ∀ t, Knows s.ring (s.pc t)

variable {ι : Type u} [DecidableEq ι] {b : Build} {s s' : Monitor ι} {a : Act ι}
  {itemSize itemCount : UInt16}

theorem SharedInv.init (h : (ringPthread ι b itemSize itemCount).init s) : SharedInv s := by
  have hexcl := exclusive_init h
  obtain ⟨⟨heap, hnew⟩, -, -, hidle, -, -⟩ := h
  obtain ⟨-, hsize, hcount, hread, hwrite, hlen⟩ := OsRing.construct_eq_ok hnew
  refine ⟨hexcl, ⟨?_, fun hsome => ?_⟩, fun t => ?_⟩
  · rw [OsRing.Allocated, hlen, hsize, hcount]
  · rw [OsRing.size, hread, hwrite] at hsome
    exact absurd rfl hsome
  · rw [hidle t]
    trivial

theorem SharedInv.step (hinv : SharedInv s) (h : Step b s a s') : SharedInv s' := by
  refine ⟨hinv.exclusive.step h, ?_, h.knows hinv.exclusive hinv.fits.front hinv.knows⟩
  rcases h.ring_cases with hsame | ⟨t, item, -, -, hpush⟩ | ⟨t, out, -, hpc, hpop⟩
  · rw [hsame]
    exact hinv.fits
  · -- what has been written fits, and so does every message
    obtain ⟨-, ⟨hitem, hfits⟩, heq⟩ := OsRing.pushBack_eq_ok.mp hpush
    rw [heq]
    exact ⟨hinv.fits.allocated.pushed hitem hfits, fun _ =>
      (hinv.fits.allocated.offset_add_le_iff _).mp hfits⟩
  · have hknows := hinv.knows t
    rw [hpc] at hknows
    obtain ⟨-, heq⟩ := OsRing.popFront_eq_ok.mp hpop
    rw [heq]
    exact ⟨hinv.fits.allocated, fun _ => hinv.fits.slot hknows.1⟩

/-! ## Calls as a whole -/

section

variable {r r' : OsRing} {item out : List UInt8} (cb : Option ℕ) (arg : ℕ)

theorem posQueueCall_put (hpush : r.pushBack b item = .ok r') :
    posQueueCall b ⟨some r, cb, arg⟩ (.put item) = .ok (⟨some r', cb, arg⟩, .put .ok) := by
  simp only [posQueueCall, posQueuePut, RingPthread.put, hpush, bind, Except.bind, pure,
    Except.pure]

/-- A `get` that finds a message takes the oldest one, whatever its timeout. -/
theorem posQueueCall_get_message (tmo : UInt32) (hfits : FrontFits r) (hsize : r.size ≠ 0)
    (hout : out.length = r.itemSize.toNat) :
    posQueueCall b ⟨some r, cb, arg⟩ (.get out tmo) =
      .ok (⟨some r.popped, cb, arg⟩, .get (r.slot r.readIndex) .ok) := by
  have hget := RingPthread.get_of_size_ne_zero (b := b) tmo (OsRing.toNat_ne_zero_iff.mpr hsize)
    (hfits hsize) hout.ge
  rw [← hout, List.drop_length, List.append_nil] at hget
  simp only [posQueueCall, posQueueGet, hget, bind, Except.bind, pure, Except.pure, if_true]

/-- A `get` that may not wait returns at once from an empty queue. -/
theorem posQueueCall_get_empty (b : Build) (out : List UInt8) (cb : Option ℕ) (arg : ℕ)
    (hsize : r.size = 0) :
    posQueueCall b ⟨some r, cb, arg⟩ (.get out 0) =
      .ok (⟨some r, cb, arg⟩, .get out .timeout) := by
  simp [posQueueCall, posQueueGet, RingPthread.get, hsize, bind, Except.bind, pure, Except.pure]

theorem posQueueCall_isEmpty :
    posQueueCall b ⟨some r, cb, arg⟩ .isEmpty =
      .ok (⟨some r, cb, arg⟩, .isEmpty (r.size == 0)) := rfl

end

/-! ## The simulation -/

variable {cb : Option ℕ} {arg : ℕ}

/-- The queue, used by one task alone. -/
abbrev sequentialQueue (ι : Type u) (b : Build) (itemSize itemCount : UInt16) (cb : Option ℕ)
    (arg : ℕ) : TransitionSystem PosQueue (Effect ι QueueCall QueueReply) :=
  answering (posQueueCall b) fun msgq =>
    ∃ heap r, OsRing.construct b heap itemSize itemCount = .ok r ∧ msgq = ⟨some r, cb, arg⟩

/-- The atomic queue stores what the monitor's ring stores, and its operations are where the
tasks are. -/
structure Atomic (cb : Option ℕ) (arg : ℕ) (s : Monitor ι)
    (q : AtomicState PosQueue ι QueueCall QueueReply) : Prop where
  inv : SharedInv s
  obj : q.obj = ⟨some s.ring, cb, arg⟩
  stands : ∀ t, (s.pc t).Stands s.ring (q.phase t)

section

variable {q : AtomicState PosQueue ι QueueCall QueueReply} {t : ι}

theorem Atomic.call (hatomic : Atomic cb arg s q) (hphase : q.phase t = .idle) (c : QueueCall) :
    AtomicStep (sequentialQueue ι b itemSize itemCount cb arg) q (.call t c)
      ⟨⟨some s.ring, cb, arg⟩, Function.update q.phase t (.called c)⟩ := by
  rw [← hatomic.obj]
  exact .call hphase

theorem Atomic.effect (hatomic : Atomic cb arg s q) {c : QueueCall} (hphase : q.phase t = .called c)
    {r : OsRing} {reply : QueueReply}
    (hcall : posQueueCall b ⟨some s.ring, cb, arg⟩ c = .ok (⟨some r, cb, arg⟩, reply)) :
    AtomicStep (sequentialQueue ι b itemSize itemCount cb arg) q (.effect t c reply)
      ⟨⟨some r, cb, arg⟩, Function.update q.phase t (.done reply)⟩ := by
  rw [← hatomic.obj] at hcall
  exact .effect hphase hcall

theorem Atomic.reply (hatomic : Atomic cb arg s q) {reply : QueueReply}
    (hphase : q.phase t = .done reply) :
    AtomicStep (sequentialQueue ι b itemSize itemCount cb arg) q (.reply t reply)
      ⟨⟨some s.ring, cb, arg⟩, Function.update q.phase t .idle⟩ := by
  rw [← hatomic.obj]
  exact .reply hphase

/-- The actor's operation goes on as its statement says. -/
theorem Atomic.answer (hatomic : Atomic cb arg s q) (h : Step b s a s') :
    (a.seen = none ∧ s'.ring = s.ring ∧ (s'.pc a.actor).Stands s'.ring (q.phase a.actor)) ∨
      ∃ e p, AtomicStep (sequentialQueue ι b itemSize itemCount cb arg) q e
          ⟨⟨some s'.ring, cb, arg⟩, Function.update q.phase a.actor p⟩ ∧
        e.seen = a.seen ∧ (s'.pc a.actor).Stands s'.ring p := by
  have hknows := hatomic.inv.knows a.actor
  have hstands := hatomic.stands a.actor
  cases h
  case callPut t item hpc hitem =>
    rw [Act.actor, hpc] at hstands
    exact .inr ⟨_, _, hatomic.call hstands (.put item), rfl, by simp [Act.actor, Pc.Stands]⟩
  case push t item r hpc hpush =>
    rw [Act.actor, hpc] at hstands
    have hcall := posQueueCall_put cb arg hpush
    exact .inr ⟨_, _, hatomic.effect hstands hcall, rfl, by simp [Act.actor, Pc.Stands]⟩
  case returnPut t hpc =>
    rw [Act.actor, hpc] at hstands
    exact .inr ⟨_, _, hatomic.reply hstands, rfl, by simp [Act.actor, Pc.Stands]⟩
  case callGet t out tmo hpc hout =>
    rw [Act.actor, hpc] at hstands
    exact .inr ⟨_, _, hatomic.call hstands (.get out tmo), rfl, by simp [Act.actor, Pc.Stands]⟩
  case testNone t out hpc hsize =>
    -- the call may not wait, for else it would have seen a message
    rw [Act.actor, hpc] at hstands
    obtain ⟨tmo, hphase, rfl | hsome⟩ := hstands
    · have hcall := posQueueCall_get_empty b out cb arg hsize
      exact .inr ⟨_, _, hatomic.effect hphase hcall, rfl, by simp [Act.actor, Pc.Stands]⟩
    · exact absurd hsize hsome
  case frontNone t out hpc hfront =>
    -- the task has found the ring not to be empty
    rw [Act.actor, hpc] at hknows
    have hsome := OsRing.front_of_size_ne_zero (OsRing.toNat_ne_zero_iff.mpr hknows.2)
    cases hsome.symm.trans hfront
  case copy t out out' item hpc hcopy =>
    rw [Act.actor, hpc] at hstands hknows
    obtain ⟨tmo, hphase⟩ := hstands
    exact .inl ⟨rfl, rfl, by simp [Act.actor, Pc.Stands, hphase, hknows.1]⟩
  case pop t out r hpc hpop =>
    rw [Act.actor, hpc] at hstands hknows
    obtain ⟨hsize, rfl⟩ := hknows
    obtain ⟨out₀, tmo, hphase, hout⟩ := hstands
    obtain ⟨-, rfl⟩ := OsRing.popFront_eq_ok.mp hpop
    have hcall := posQueueCall_get_message (b := b) cb arg tmo hatomic.inv.fits.front hsize hout
    exact .inr ⟨_, _, hatomic.effect hphase hcall, rfl, by simp [Act.actor, Pc.Stands]⟩
  case returnGet t out found hpc =>
    rw [Act.actor, hpc] at hstands
    exact .inr ⟨_, _, hatomic.reply hstands, rfl, by simp [Act.actor, Pc.Stands]⟩
  case callIsEmpty t hpc =>
    rw [Act.actor, hpc] at hstands
    exact .inr ⟨_, _, hatomic.call hstands .isEmpty, rfl, by simp [Act.actor, Pc.Stands]⟩
  case read t hpc =>
    rw [Act.actor, hpc] at hstands
    exact .inr ⟨_, _, hatomic.effect hstands (posQueueCall_isEmpty cb arg), rfl,
      by simp [Act.actor, Pc.Stands]⟩
  case returnIsEmpty t n hpc =>
    rw [Act.actor, hpc] at hstands
    exact .inr ⟨_, _, hatomic.reply hstands, rfl, by simp [Act.actor, Pc.Stands]⟩
  -- the other statements do not show, and take no effect
  all_goals
    left
    simp_all [Act.actor, Act.seen, Pc.Stands]

/-- The other tasks' operations stand where they stood. -/
theorem Atomic.stands_of_ne (hatomic : Atomic cb arg s q) (h : Step b s a s') {u : ι}
    (hu : u ≠ a.actor) : (s'.pc u).Stands s'.ring (q.phase u) := by
  rw [h.pc_of_ne hu]
  have hstands := hatomic.stands u
  -- if the ring has changed, the actor held the mutex and `u` did not
  rcases h.ring_cases with hsame | ⟨t, item, rfl, hpc, -⟩ | ⟨t, out, rfl, hpc, -⟩
  · rwa [hsame]
  all_goals
    refine hstands.of_not_holds ?_
    rw [Bool.eq_false_iff]
    intro hholds
    exact hu (hatomic.inv.exclusive.unique hholds (by simp only [Act.actor, hpc]; rfl))

end

/-- **The atomic queue simulates the monitor.** -/
theorem atomicObject_simulates_monitor (b : Build) (itemSize itemCount : UInt16)
    (cb : Option ℕ) (arg : ℕ) :
    ForwardSimulation (ringPthread ι b itemSize itemCount) (fun _ _ => True)
      (atomicObject (sequentialQueue ι b itemSize itemCount cb arg)) Act.seen ObjEvent.seen
      (Atomic cb arg) where
  init s hinit := by
    have hinv := SharedInv.init hinit
    obtain ⟨⟨heap, hnew⟩, -, -, hidle, -⟩ := hinit
    refine ⟨⟨⟨some s.ring, cb, arg⟩, fun _ => .idle⟩, ⟨⟨heap, _, hnew, rfl⟩, fun _ => rfl⟩,
      hinv, rfl, fun t => ?_⟩
    rw [hidle t]
    rfl
  step s a s' q hatomic _ hstep := by
    obtain ⟨-, h⟩ := hstep
    have hinv := hatomic.inv.step h
    rcases hatomic.answer h with ⟨hseen, hring, hstands⟩ | ⟨e, p, hanswer, hseen, hstands⟩
    · refine .inl ⟨hseen, hinv, by rw [hatomic.obj, hring], fun u => ?_⟩
      by_cases hu : u = a.actor
      · rwa [hu]
      · exact hatomic.stands_of_ne h hu
    · refine .inr ⟨e, _, hanswer, hseen, hinv, rfl, fun u => ?_⟩
      by_cases hu : u = a.actor
      · rw [hu]
        simpa using hstands
      · simpa [hu] using hatomic.stands_of_ne h hu

/-! ## All runs -/

/-- **The POSIX queue is linearizable.** However the statements of the tasks' operations
interleave, and whatever else happens to the tasks, the calls and replies of a run are those
of operations that take effect one after the other, each as a whole and between its call and
its reply, and lead from the constructed queue to the ring that the run has come to. -/
theorem ringPthread_linearizable (cb : Option ℕ) (arg : ℕ) {as : List (Act ι)}
    (hrun : (ringPthread ι b itemSize itemCount).Run (fun _ _ => True) as s) :
    ∃ es, Linearization (sequentialQueue ι b itemSize itemCount cb arg) (as.filterMap Act.seen) es
        ⟨some s.ring, cb, arg⟩ ∧
      ∃ msgq : PosQueue, msgq.contents = [] ∧
        runCalls (posQueueCall b) msgq ((es.filterMap ObjEvent.takesEffect).map Effect.call) =
          .ok (⟨some s.ring, cb, arg⟩,
            (es.filterMap ObjEvent.takesEffect).map Effect.reply) := by
  obtain ⟨es, q, hlin, hatomic⟩ :=
    linearization_of_simulation (atomicObject_simulates_monitor b itemSize itemCount cb arg) hrun
  rw [hatomic.obj] at hlin
  obtain ⟨msgq, ⟨heap, r, hnew, rfl⟩, hcalls⟩ := runCalls_of_run hlin.effects
  refine ⟨es, hlin, _, ?_, hcalls⟩
  obtain ⟨-, -, -, hread, hwrite, -⟩ := OsRing.construct_eq_ok hnew
  have hempty : r.contents.length = 0 := by
    rw [OsRing.length_contents, OsRing.size, hread, hwrite]
    rfl
  exact List.length_eq_zero_iff.mp hempty

/-- A consumer is removed while it waits, after the producer has found the queue empty. -/
theorem ringPthread_linearizable_removed :
    ∃ (as : List (Act Bool)) (s : Monitor Bool), s.pc true = .terminated ∧
      as.filterMap Act.seen = [.call false .isEmpty, .call true (.get [0] 1),
        .reply false (.isEmpty true), .call false (.put [7])] ∧
      ∃ es, Linearization (sequentialQueue Bool ⟨false⟩ 1 2 none 0) (as.filterMap Act.seen) es
          ⟨some s.ring, none, 0⟩ ∧
        ∃ msgq : PosQueue, msgq.contents = [] ∧
          runCalls (posQueueCall ⟨false⟩) msgq
              ((es.filterMap ObjEvent.takesEffect).map Effect.call) =
            .ok (⟨some s.ring, none, 0⟩,
              (es.filterMap ObjEvent.takesEffect).map Effect.reply) := by
  have h0 : (ringPthread Bool ⟨false⟩ 1 2).Run (fun _ _ => True) [] _ :=
    .start (init_start ⟨false⟩ .zeroed 1 2 rfl)
  have h1 := h0.next (.callIsEmpty false) trivial ⟨rfl, .callIsEmpty rfl⟩
  have h2 := h1.next (.lock false) trivial ⟨rfl, .lockSize rfl rfl⟩
  have h3 := h2.next (.callGet true [0] 1) trivial ⟨rfl, .callGet rfl rfl⟩
  have h4 := h3.next (.read false) trivial ⟨rfl, .read rfl⟩
  have h5 := h4.next (.unlock false) trivial ⟨rfl, .unlockSize rfl rfl⟩
  have h6 := h5.next (.lock true) trivial ⟨rfl, .lockGet rfl rfl⟩
  have h7 := h6.next (.loop true) trivial ⟨rfl, .loopWait rfl (by decide) rfl rfl⟩
  have h8 := h7.next (.returnIsEmpty false _) trivial ⟨rfl, .returnIsEmpty rfl⟩
  have h9 := h8.next (.remove true) trivial ⟨rfl, .remove⟩
  have h10 := h9.next (.cancel true) trivial ⟨rfl, .cancel rfl rfl⟩
  have h11 := h10.next (.cancelRelock true) trivial ⟨rfl, .cancelRelock rfl rfl⟩
  have h12 := h11.next (.callPut false [7]) trivial ⟨rfl, .callPut rfl rfl⟩
  exact ⟨_, _, rfl, rfl, ringPthread_linearizable none 0 h12⟩

end Poski.Posix
