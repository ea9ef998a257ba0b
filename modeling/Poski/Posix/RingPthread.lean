import Mathlib.Data.Finset.Basic
import Poski.Lib.RecLock
import Poski.Lib.TransitionSystem
import Poski.Posix.Native
import Poski.Ring.OsRing

/-!
# RingPthread: the POSIX Queue as a Monitor

`RingPthread.h` wraps an `OsRing` in a mutex and a condition variable. Its operations,
and those of `os_queue.cc` that call them, are modelled statement by statement, so that
any number of tasks may be anywhere inside them at the same time:

- a task's place (`Pc`) says which statement of which operation it executes next,
  together with the local variables that are still needed;
- a step (`Step`) executes one statement of one task, or is one of the things that can
  happen to a waiting task: a spurious wakeup, or a cancellation.

## What is assumed of pthreads

- The mutex admits one owner; `pthread_mutex_lock` returns to a task only when the mutex
  is free (or already its own: the mutex is recursive).
- `pthread_cond_wait` releases the mutex and parks the caller in one step. A parked task
  may be woken at any time, also spuriously; it then competes for the mutex like any
  other task.
- `pthread_cond_signal` wakes at least one parked task, if there is any.
- Cancellation is deferred. A task cancelled inside `pthread_cond_wait` locks the mutex
  again before it terminates, and nothing unlocks it for it.
-/

namespace Poski.Posix

open Lib

universe u

/-- Where a task stands in the queue's operations. `out` is the caller's buffer
`itemOut`, with the contents it has at that point. -/
inductive Pc where
  | idle
  -- `pos_queue_put`, `RingPthread::put`
  | putLock (item : List UInt8)
  | putPush (item : List UInt8)
  | putSignal
  | putUnlock
  | putReturn
  -- `pos_queue_get`, `RingPthread::get`
  | getLock (out : List UInt8) (tmo : UInt32)
  | getLoop (out : List UInt8) (tmo : UInt32)
  | getWait (out : List UInt8) (tmo : UInt32)
  | getTest (out : List UInt8)
  | getFront (out : List UInt8)
  | getCopy (out : List UInt8) (item : ℕ)
  | getPop (out : List UInt8)
  | getUnlock (out : List UInt8) (found : Bool)
  | getReturn (out : List UInt8) (found : Bool)
  -- `pos_queue_is_empty`, `RingPthread::size`
  | sizeLock
  | sizeRead
  | sizeUnlock (n : UInt16)
  | sizeReturn (n : UInt16)
  -- a task that acts on its cancellation inside `pthread_cond_wait`
  | cancelled
  | terminated
  deriving DecidableEq, Repr

/-- What can happen in a step; `t` is the task it happens to. -/
inductive Act (ι : Type u) where
  | callPut (t : ι) (item : List UInt8)
  | callGet (t : ι) (out : List UInt8) (tmo : UInt32)
  | callIsEmpty (t : ι)
  | lock (t : ι)
  | push (t : ι) (item : List UInt8)
  | signal (t : ι) (woken : Finset ι)
  | loop (t : ι)
  | wake (t : ι)
  | relock (t : ι)
  | test (t : ι)
  | front (t : ι)
  | copy (t : ι)
  | pop (t : ι) (item : List UInt8)
  | read (t : ι)
  | unlock (t : ι)
  | returnPut (t : ι) (err : PosError)
  | returnGet (t : ι) (out : List UInt8) (err : PosError)
  | returnIsEmpty (t : ι) (isEmpty : Bool)
  | remove (t : ι)
  | cancel (t : ι)
  | cancelRelock (t : ι)
  | exit (t : ι)

/-- The queue and all tasks. `condv` are the tasks parked in the condition variable,
`pending` marks the tasks that `pos_task_remove` was called for, and `halted` tells that
the process has come to its end inside one of the operations. -/
structure Monitor (ι : Type u) where
  ring : OsRing
  mutex : RecLock ι
  condv : Finset ι
  pc : ι → Pc
  pending : ι → Bool
  halted : Option Halt

variable {ι : Type u} [DecidableEq ι]

/-- Task `t` goes to `p`. -/
def Monitor.goto (s : Monitor ι) (t : ι) (p : Pc) : Monitor ι :=
  { s with pc := Function.update s.pc t p }

/-- One step of one task. The constructors follow the statements of the source, in its
order. -/
inductive Step (b : Build) : Monitor ι → Act ι → Monitor ι → Prop where
  -- `pos_queue_put(msgq, data)`: `data` leads to one message
  | callPut {s : Monitor ι} {t : ι} {item : List UInt8} (hpc : s.pc t = .idle)
      (hitem : item.length = s.ring.itemSize.toNat) :
      Step b s (.callPut t item) (s.goto t (.putLock item))
  -- `pthread_mutex_lock(&_mutex)`
  | lockPut {s : Monitor ι} {t : ι} {item : List UInt8} {m : RecLock ι}
      (hpc : s.pc t = .putLock item) (hlock : s.mutex.lock mutexLimit t = some m) :
      Step b s (.lock t) ({ s with mutex := m }.goto t (.putPush item))
  -- `super_t::push_back(itemIn)`
  | push {s : Monitor ι} {t : ι} {item : List UInt8} {r : OsRing}
      (hpc : s.pc t = .putPush item) (hpush : s.ring.pushBack b item = .ok r) :
      Step b s (.push t item) ({ s with ring := r }.goto t .putSignal)
  | pushHalt {s : Monitor ι} {t : ι} {item : List UInt8} {h : Halt}
      (hpc : s.pc t = .putPush item) (hpush : s.ring.pushBack b item = .error h) :
      Step b s (.push t item) { s with halted := some h }
  -- `pthread_cond_signal(&_condv)`
  | signal {s : Monitor ι} {t : ι} {woken : Finset ι} (hpc : s.pc t = .putSignal)
      (hsub : woken ⊆ s.condv) (hsome : woken = ∅ → s.condv = ∅) :
      Step b s (.signal t woken) ({ s with condv := s.condv \ woken }.goto t .putUnlock)
  -- `pthread_mutex_unlock(&_mutex)`
  | unlockPut {s : Monitor ι} {t : ι} {m : RecLock ι} (hpc : s.pc t = .putUnlock)
      (hunlock : s.mutex.unlock t = some m) :
      Step b s (.unlock t) ({ s with mutex := m }.goto t .putReturn)
  -- the signal callback runs outside the mutex; then `return POS_OK`
  | returnPut {s : Monitor ι} {t : ι} (hpc : s.pc t = .putReturn) :
      Step b s (.returnPut t .ok) (s.goto t .idle)
  -- `pos_queue_get(msgq, data, tmo)`: `data` has room for one message
  | callGet {s : Monitor ι} {t : ι} {out : List UInt8} {tmo : UInt32} (hpc : s.pc t = .idle)
      (hout : out.length = s.ring.itemSize.toNat) :
      Step b s (.callGet t out tmo) (s.goto t (.getLock out tmo))
  | lockGet {s : Monitor ι} {t : ι} {out : List UInt8} {tmo : UInt32} {m : RecLock ι}
      (hpc : s.pc t = .getLock out tmo) (hlock : s.mutex.lock mutexLimit t = some m) :
      Step b s (.lock t) ({ s with mutex := m }.goto t (.getLoop out tmo))
  -- `if (tmo) while (super_t::size() == 0) pthread_cond_wait(&_condv, &_mutex);`
  | loopWait {s : Monitor ι} {t : ι} {out : List UInt8} {tmo : UInt32} {m : RecLock ι}
      (hpc : s.pc t = .getLoop out tmo) (htmo : tmo ≠ 0) (hsize : s.ring.size = 0)
      (hunlock : s.mutex.unlock t = some m) :
      Step b s (.loop t)
        ({ s with mutex := m, condv := insert t s.condv }.goto t (.getWait out tmo))
  | loopPass {s : Monitor ι} {t : ι} {out : List UInt8} {tmo : UInt32}
      (hpc : s.pc t = .getLoop out tmo) (hpass : tmo = 0 ∨ s.ring.size ≠ 0) :
      Step b s (.loop t) (s.goto t (.getTest out))
  -- a parked task is woken without a signal
  | wake {s : Monitor ι} {t : ι} (hparked : t ∈ s.condv) :
      Step b s (.wake t) { s with condv := s.condv.erase t }
  -- `pthread_cond_wait` returns, with the mutex locked
  | relock {s : Monitor ι} {t : ι} {out : List UInt8} {tmo : UInt32} {m : RecLock ι}
      (hpc : s.pc t = .getWait out tmo) (hwoken : t ∉ s.condv)
      (hlock : s.mutex.lock mutexLimit t = some m) :
      Step b s (.relock t) ({ s with mutex := m }.goto t (.getLoop out tmo))
  -- `if (super_t::size() != 0)`
  | testSome {s : Monitor ι} {t : ι} {out : List UInt8} (hpc : s.pc t = .getTest out)
      (hsize : s.ring.size ≠ 0) : Step b s (.test t) (s.goto t (.getFront out))
  | testNone {s : Monitor ι} {t : ι} {out : List UInt8} (hpc : s.pc t = .getTest out)
      (hsize : s.ring.size = 0) : Step b s (.test t) (s.goto t (.getUnlock out false))
  -- `item = super_t::front(); if (item)`
  | frontSome {s : Monitor ι} {t : ι} {out : List UInt8} {item : ℕ}
      (hpc : s.pc t = .getFront out) (hfront : s.ring.front = some item) :
      Step b s (.front t) (s.goto t (.getCopy out item))
  | frontNone {s : Monitor ι} {t : ι} {out : List UInt8} (hpc : s.pc t = .getFront out)
      (hfront : s.ring.front = none) : Step b s (.front t) (s.goto t (.getUnlock out false))
  -- `memcpy(itemOut, item, super_t::item_size())`
  | copy {s : Monitor ι} {t : ι} {out out' : List UInt8} {item : ℕ}
      (hpc : s.pc t = .getCopy out item)
      (hcopy : memcpy out 0 (s.ring.buffer.drop item) s.ring.itemSize.toNat = .ok out') :
      Step b s (.copy t) (s.goto t (.getPop out'))
  | copyHalt {s : Monitor ι} {t : ι} {out : List UInt8} {item : ℕ} {h : Halt}
      (hpc : s.pc t = .getCopy out item)
      (hcopy : memcpy out 0 (s.ring.buffer.drop item) s.ring.itemSize.toNat = .error h) :
      Step b s (.copy t) { s with halted := some h }
  -- `super_t::pop_front()`: the message in `itemOut` is now the caller's
  | pop {s : Monitor ι} {t : ι} {out : List UInt8} {r : OsRing} (hpc : s.pc t = .getPop out)
      (hpop : s.ring.popFront b = .ok r) :
      Step b s (.pop t out) ({ s with ring := r }.goto t (.getUnlock out true))
  | popHalt {s : Monitor ι} {t : ι} {out : List UInt8} {h : Halt}
      (hpc : s.pc t = .getPop out) (hpop : s.ring.popFront b = .error h) :
      Step b s (.pop t out) { s with halted := some h }
  | unlockGet {s : Monitor ι} {t : ι} {out : List UInt8} {found : Bool} {m : RecLock ι}
      (hpc : s.pc t = .getUnlock out found) (hunlock : s.mutex.unlock t = some m) :
      Step b s (.unlock t) ({ s with mutex := m }.goto t (.getReturn out found))
  -- `return (item != NULL)`, and `return (success) ? POS_OK : POS_TIMEOUT`
  | returnGet {s : Monitor ι} {t : ι} {out : List UInt8} {found : Bool}
      (hpc : s.pc t = .getReturn out found) :
      Step b s (.returnGet t out (if found then .ok else .timeout)) (s.goto t .idle)
  -- `pos_queue_is_empty(msgq)`
  | callIsEmpty {s : Monitor ι} {t : ι} (hpc : s.pc t = .idle) :
      Step b s (.callIsEmpty t) (s.goto t .sizeLock)
  | lockSize {s : Monitor ι} {t : ι} {m : RecLock ι} (hpc : s.pc t = .sizeLock)
      (hlock : s.mutex.lock mutexLimit t = some m) :
      Step b s (.lock t) ({ s with mutex := m }.goto t .sizeRead)
  -- `uint16_t size = super_t::size()`
  | read {s : Monitor ι} {t : ι} (hpc : s.pc t = .sizeRead) :
      Step b s (.read t) (s.goto t (.sizeUnlock s.ring.size))
  | unlockSize {s : Monitor ι} {t : ι} {n : UInt16} {m : RecLock ι}
      (hpc : s.pc t = .sizeUnlock n) (hunlock : s.mutex.unlock t = some m) :
      Step b s (.unlock t) ({ s with mutex := m }.goto t (.sizeReturn n))
  | returnIsEmpty {s : Monitor ι} {t : ι} {n : UInt16} (hpc : s.pc t = .sizeReturn n) :
      Step b s (.returnIsEmpty t (n == 0)) (s.goto t .idle)
  -- some task calls `pos_task_remove` for `t`: `pthread_cancel(t->handle)`
  | remove {s : Monitor ι} {t : ι} :
      Step b s (.remove t) { s with pending := Function.update s.pending t true }
  -- the cancellation takes effect inside `pthread_cond_wait`
  | cancel {s : Monitor ι} {t : ι} {out : List UInt8} {tmo : UInt32}
      (hpending : s.pending t = true) (hpc : s.pc t = .getWait out tmo) :
      Step b s (.cancel t) ({ s with condv := s.condv.erase t }.goto t .cancelled)
  | cancelRelock {s : Monitor ι} {t : ι} {m : RecLock ι} (hpc : s.pc t = .cancelled)
      (hlock : s.mutex.lock mutexLimit t = some m) :
      Step b s (.cancelRelock t) ({ s with mutex := m }.goto t .terminated)
  -- the cancellation takes effect outside the queue's operations
  | exit {s : Monitor ι} {t : ι} (hpending : s.pending t = true) (hpc : s.pc t = .idle) :
      Step b s (.exit t) (s.goto t .terminated)

/-- A queue of `itemCount` messages of `itemSize` bytes: all tasks are outside its
operations at first, and nothing moves any more once the process has come to its end. -/
def ringPthread (ι : Type u) [DecidableEq ι] (b : Build) (itemSize itemCount : UInt16) :
    TransitionSystem (Monitor ι) (Act ι) where
  init s :=
    (∃ heap, OsRing.construct b heap itemSize itemCount = .ok s.ring) ∧ s.mutex = .free ∧
      s.condv = ∅ ∧ (∀ t, s.pc t = .idle) ∧ (∀ t, s.pending t = false) ∧ s.halted = none
  step s a s' := s.halted = none ∧ Step b s a s'

/-- A monitor around the ring `r` that no task has used yet. -/
def Monitor.start (r : OsRing) : Monitor ι where
  ring := r
  mutex := .free
  condv := ∅
  pc _ := .idle
  pending _ := false
  halted := none

theorem init_start (b : Build) (heap : Allocator) (itemSize itemCount : UInt16) {r : OsRing}
    (hnew : OsRing.construct b heap itemSize itemCount = .ok r) :
    (ringPthread ι b itemSize itemCount).init (Monitor.start r) :=
  ⟨⟨heap, hnew⟩, rfl, rfl, fun _ => rfl, fun _ => rfl, rfl⟩

end Poski.Posix
