import Poski.Posix.MonitorInvariant
import Poski.Spec.BoundedFifo

/-!
# The POSIX Queue is a FIFO under Every Interleaving

A message enters the queue in the critical section of a `put` and leaves it in the
critical section of a `get`. Seen through these two statements alone, every run of the
monitor in which no `push_back` meets a full ring is a run of a bounded FIFO. The
remaining statements of an operation carry one message between its caller and its critical
section.

## Main results

- `monitor_simulates_fifo` : the simulation
- `MonitorInv.handover` : what one step does to the messages on their way
- `ringPthread_fifo` : the FIFO law, over runs
-/

namespace Poski.Posix

open Lib Spec

universe u

variable {ι : Type u}

/-! ## Messages in a run -/

namespace Act

/-- The message that a task gives to `pos_queue_put`. -/
def given : Act ι → Option (List UInt8)
  | .callPut _ item => some item
  | _ => none

/-- The message that enters the ring. -/
def pushed : Act ι → Option (List UInt8)
  | .push _ item => some item
  | _ => none

/-- The message that leaves the ring. -/
def popped : Act ι → Option (List UInt8)
  | .pop _ out => some out
  | _ => none

/-- The message that a successful `pos_queue_get` returns to its caller. -/
def returned : Act ι → Option (List UInt8)
  | .returnGet _ out .ok => some out
  | _ => none

/-- What an observer of the ring sees of a step. -/
def event : Act ι → Option (FifoEvent (List UInt8))
  | .push _ item => some (.push item)
  | .pop _ out => some (.pop out)
  | _ => none

theorem event_pushed (a : Act ι) : a.event.bind FifoEvent.pushed = a.pushed := by
  cases a <;> rfl

theorem event_popped (a : Act ι) : a.event.bind FifoEvent.popped = a.popped := by
  cases a <;> rfl

end Act

namespace Pc

/-- The message of a `put` that has not reached its `push_back` yet. -/
def toPush : Pc → List (List UInt8)
  | .putLock item | .putPush item => [item]
  | _ => []

/-- The message of a `get` that is past its `pop_front`. -/
def toReturn : Pc → List (List UInt8)
  | .getUnlock out true | .getReturn out true => [out]
  | _ => []

end Pc

/-- The part of a run that happened to one task. -/
def stepsOf [DecidableEq ι] (t : ι) (as : List (Act ι)) : List (Act ι) :=
  as.filter fun a => a.actor = t

/-! ## The simulation -/

variable [DecidableEq ι] {b : Build} {s s' : Monitor ι} {a : Act ι}

/-- No operation ends the process. -/
theorem MonitorInv.not_halted (hinv : MonitorInv s) (h : Step b s a s')
    (hcond : NoFullPut s a) : s'.halted = s.halted := by
  have hvalid := hinv.stable.valid
  have hknows := hinv.stable.knows a.actor
  cases h
  case pushHalt t item e hpc hpush =>
    rw [Act.actor, hpc] at hknows
    obtain ⟨hok, -⟩ :=
      hvalid.pushBack_spec (b := b) (Nat.le_of_eq hknows.symm) (room_of_not_full hvalid hcond)
    cases hok.symm.trans hpush
  case copyHalt t out item e hpc hcopy =>
    rw [Act.actor, hpc] at hknows
    obtain ⟨hout, -, hfront⟩ := hknows
    cases (memcpy_front_whole (hvalid.offset_add_le _) hout hfront).symm.trans hcopy
  case popHalt t out e hpc hpop =>
    rw [Act.actor, hpc] at hknows
    obtain ⟨hok, -⟩ := hvalid.popFront_spec (b := b) (OsRing.toNat_ne_zero_iff.mpr hknows.1)
    cases hok.symm.trans hpop
  all_goals rfl

/-- A step whose event is hidden leaves the ring alone. -/
theorem MonitorInv.ring_of_hidden (h : Step b s a s') (hevent : a.event = none) :
    s'.ring = s.ring := by
  rcases h.ring_cases with hsame | ⟨t, item, rfl, -⟩ | ⟨t, out, rfl, -⟩
  · exact hsame
  · cases hevent
  · cases hevent

/-- The monitor stores what the FIFO holds. -/
structure Stores {cap : ℕ} (s : Monitor ι) (q : BoundedFifo (List UInt8) cap) : Prop
    extends MonitorInv s where
  count_eq : s.ring.itemCount.toNat = cap
  contents_eq : s.ring.contents = q.items

variable {itemSize itemCount : UInt16}

/-- **The monitor simulates a bounded FIFO**: `push_back` answers to its push, `pop_front`
to its pop, and everything else, waiting and waking included, is hidden. -/
theorem monitor_simulates_fifo (hcount : b.ndebug = true → OsRing.countOk itemCount = true) :
    Simulation (ringPthread ι b itemSize itemCount) NoFullPut
      (fifo (List UInt8) itemCount.toNat) Act.event Stores where
  init s hinit := by
    have hinv := MonitorInv.init hcount hinit
    obtain ⟨⟨heap, hnew⟩, -⟩ := hinit
    obtain ⟨-, -, hcnt, -⟩ := OsRing.construct_eq_ok hnew
    have hok := OsRing.countOk_of_construct hcount hnew
    exact ⟨.nil, rfl, hinv, by rw [hcnt], (OsRing.construct_spec hok hnew).2⟩
  hidden s a s' q hR hcond hstep hevent := by
    have hring := MonitorInv.ring_of_hidden hstep.2 hevent
    exact ⟨hR.toMonitorInv.step hstep.2 hcond, by rw [hring, hR.count_eq],
      by rw [hring, hR.contents_eq]⟩
  visible s a s' q e hR hcond hstep hevent := by
    have hinv := hR.toMonitorInv.step hstep.2 hcond
    have hhalted := (hR.toMonitorInv.not_halted hstep.2 hcond).trans hstep.1
    have hvalid := hR.stable.valid
    have hknows := hR.stable.knows a.actor
    obtain ⟨-, h⟩ := hstep
    cases h
    case push t item r hpc hpush =>
      cases hevent
      rw [Act.actor, hpc] at hknows
      have hroom := room_of_not_full hvalid hcond
      obtain ⟨hok, hvalid', hcontents⟩ :=
        hvalid.pushBack_spec (b := b) (Nat.le_of_eq hknows.symm) hroom
      cases hok.symm.trans hpush
      -- the message has the size of a slot, so all of it is stored
      have hitem : item.take s.ring.itemSize.toNat = item := List.take_of_length_le hknows.le
      rw [hitem] at hcontents
      refine ⟨q.push item ?_, ?_, hinv, hR.count_eq, ?_⟩
      · rw [← hR.contents_eq, OsRing.length_contents, ← hR.count_eq]
        exact hroom
      · rfl
      · rw [BoundedFifo.push_items, ← hR.contents_eq]
        exact hcontents
    case pop t out r hpc hpop =>
      cases hevent
      rw [Act.actor, hpc] at hknows
      obtain ⟨hsize, hslot⟩ := hknows
      obtain ⟨hok, hvalid', hcontents⟩ :=
        hvalid.popFront_spec (b := b) (OsRing.toNat_ne_zero_iff.mpr hsize)
      cases hok.symm.trans hpop
      rw [hslot, hR.contents_eq] at hcontents
      refine ⟨q.pop, ?_, hinv, hR.count_eq, ?_⟩
      · show q.items = out :: q.pop.items
        rw [BoundedFifo.pop_items, hcontents, List.tail_cons]
      · show s.ring.popped.contents = q.pop.items
        rw [BoundedFifo.pop_items, hcontents, List.tail_cons]
    case pushHalt => cases hhalted
    case popHalt => cases hhalted
    all_goals cases hevent

/-! ## Messages on their way -/

/-- **Handover**: a step hands its actor's message on, or leaves it where it is. -/
theorem MonitorInv.handover (hinv : MonitorInv s) (h : Step b s a s') (hcond : NoFullPut s a)
    (hrunning : s.halted = none) :
    (s.pc a.actor).toPush ++ a.given.toList = a.pushed.toList ++ (s'.pc a.actor).toPush ∧
      (s.pc a.actor).toReturn ++ a.popped.toList =
        a.returned.toList ++ (s'.pc a.actor).toReturn := by
  have hhalted := (hinv.not_halted h hcond).trans hrunning
  cases h
  case returnGet t out found hpc =>
    cases found <;>
      simp [Act.actor, Act.given, Act.pushed, Act.popped, Act.returned, hpc, Pc.toPush,
        Pc.toReturn]
  case unlockGet t out found m hpc hunlock =>
    cases found <;>
      simp [Act.actor, Act.given, Act.pushed, Act.popped, Act.returned, hpc, Pc.toPush,
        Pc.toReturn]
  case pushHalt | popHalt | copyHalt => cases hhalted
  all_goals
    simp [Act.actor, Act.given, Act.pushed, Act.popped, Act.returned, Pc.toPush, Pc.toReturn,
      *]

omit [DecidableEq ι] in
theorem filterMap_snoc {α β : Type*} (f : α → Option β) (as : List α) (a : α) :
    (as ++ [a]).filterMap f = as.filterMap f ++ (f a).toList := by
  cases h : f a <;> simp [h]

/-- What one task was given it has pushed, or is about to push; what it has popped it has
returned, or is about to return. -/
def HandsOver (t : ι) (as : List (Act ι)) (s : Monitor ι) : Prop :=
  (stepsOf t as).filterMap Act.given =
      (stepsOf t as).filterMap Act.pushed ++ (s.pc t).toPush ∧
    (stepsOf t as).filterMap Act.popped =
      (stepsOf t as).filterMap Act.returned ++ (s.pc t).toReturn

theorem HandsOver.step {t : ι} {as : List (Act ι)} (hmsgs : HandsOver t as s)
    (hinv : MonitorInv s) (h : Step b s a s') (hcond : NoFullPut s a)
    (hrunning : s.halted = none) : HandsOver t (as ++ [a]) s' := by
  obtain ⟨hput, hget⟩ := hmsgs
  by_cases hactor : a.actor = t
  · have hsteps : stepsOf t (as ++ [a]) = stepsOf t as ++ [a] := by
      simp [stepsOf, hactor]
    obtain ⟨htoPush, htoReturn⟩ := hinv.handover h hcond hrunning
    rw [hactor] at htoPush htoReturn
    unfold HandsOver
    simp only [hsteps, filterMap_snoc]
    constructor
    · rw [hput, List.append_assoc, htoPush, List.append_assoc]
    · rw [hget, List.append_assoc, htoReturn, List.append_assoc]
  · -- a step of another task
    have hsteps : stepsOf t (as ++ [a]) = stepsOf t as := by
      simp [stepsOf, hactor]
    unfold HandsOver
    rw [hsteps, h.pc_of_ne (Ne.symm hactor)]
    exact ⟨hput, hget⟩

/-! ## The FIFO law -/

/-- **The POSIX queue is a FIFO.** However the statements of `put`, `get` and `size` of any
tasks interleave, the messages pushed so far, in the order of their critical sections, are
the messages popped so far, in the order of theirs, followed by the ring's contents. Each
task pushes what its callers gave it, in their order, and returns what it popped. -/
theorem ringPthread_fifo (hcount : b.ndebug = true → OsRing.countOk itemCount = true)
    {as : List (Act ι)}
    (hrun : (ringPthread ι b itemSize itemCount).Run NoFullPut as s) :
    as.filterMap Act.pushed = as.filterMap Act.popped ++ s.ring.contents ∧
      ∀ t, HandsOver t as s := by
  constructor
  · obtain ⟨q, hfifo, hR⟩ := (monitor_simulates_fifo hcount).run hrun
    have hhistory := fifo_history hfifo
    simp only [List.filterMap_filterMap, Act.event_pushed, Act.event_popped] at hhistory
    rw [hhistory, hR.contents_eq]
  · intro t
    refine (hrun.invariant (I := fun as s => MonitorInv s ∧ HandsOver t as s) ?_ ?_).2
    · intro s hinit
      refine ⟨MonitorInv.init hcount hinit, ?_⟩
      obtain ⟨-, -, -, hidle, -, -⟩ := hinit
      simp [HandsOver, stepsOf, hidle t, Pc.toPush, Pc.toReturn]
    · rintro as s a s' ⟨hinv, hmsgs⟩ hcond ⟨hrunning, h⟩
      exact ⟨hinv.step h hcond, hmsgs.step hinv h hcond hrunning⟩

/-- A consumer waits for the message that a producer puts. -/
theorem ringPthread_fifo_waiting :
    ∃ (as : List (Act Bool)) (s : Monitor Bool), as.filterMap Act.pushed = [[7]] ∧
      s.pc true = .getWait [0] 1 ∧
      as.filterMap Act.pushed = as.filterMap Act.popped ++ s.ring.contents ∧
        ∀ t, HandsOver t as s := by
  have h0 : (ringPthread Bool ⟨false⟩ 1 2).Run NoFullPut [] _ :=
    .start (init_start ⟨false⟩ .zeroed 1 2 rfl)
  have h1 := h0.next (.callGet true [0] 1) trivial ⟨rfl, .callGet rfl rfl⟩
  have h2 := h1.next (.lock true) trivial ⟨rfl, .lockGet rfl rfl⟩
  have h3 := h2.next (.loop true) trivial ⟨rfl, .loopWait rfl (by decide) rfl rfl⟩
  have h4 := h3.next (.callPut false [7]) trivial ⟨rfl, .callPut rfl rfl⟩
  have h5 := h4.next (.lock false) trivial ⟨rfl, .lockPut rfl rfl⟩
  have h6 := h5.next (.push false [7]) rfl ⟨rfl, .push rfl rfl⟩
  exact ⟨_, _, rfl, rfl, ringPthread_fifo (by decide) h6⟩

end Poski.Posix
