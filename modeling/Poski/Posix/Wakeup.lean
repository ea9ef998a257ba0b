import Poski.Lib.Population
import Poski.Posix.MonitorInvariant

/-!
# No Lost Wakeup

A `put` signals one waiter for its message, and another `get` may take the message before
the woken waiter has the mutex again. While consumers are parked, the messages are
nevertheless accounted for: each stored message belongs to a consumer that has been woken,
except that one message may belong to the task in the critical section.

- `WakeupInv` : the account
- `WakeupInv.step` : every step keeps it
- `no_lost_wakeup` : no consumer stays parked beside a message that nobody is coming for
-/

namespace Poski.Posix

open Lib

universe u

/-- The places in the critical sections from which one stored message is still going to
be taken or signalled. -/
def Pc.carries : Pc → Bool
  | .putSignal | .getLoop _ _ | .getTest _ | .getFront _ | .getCopy _ _ | .getPop _ => true
  | _ => false

theorem Pc.holds_of_carries {p : Pc} (h : p.carries = true) : p.holds = true := by
  cases p <;> first | rfl | cases h

variable {ι : Type u}

/-- `t` has been woken inside `pthread_cond_wait` and is on its way to lock the mutex. -/
def Woken (s : Monitor ι) (t : ι) : Prop :=
  (s.pc t).waits = true ∧ t ∉ s.condv

/-- The account: as long as consumers are parked, each stored message belongs to a woken
consumer, but for one that may belong to the task in the critical section. -/
def WakeupInv (s : Monitor ι) : Prop :=
  s.condv.Nonempty →
    AtLeast s.ring.size.toNat (Woken s) ∨
      (∃ t, (s.pc t).carries = true) ∧ AtLeast (s.ring.size.toNat - 1) (Woken s)

/-- The use of a queue that the law is about: no `push_back` meets a full ring, and no
task is removed. -/
def Undisturbed (s : Monitor ι) (a : Act ι) : Prop :=
  NoFullPut s a ∧ ∀ t, a ≠ .remove t

variable [DecidableEq ι] {b : Build} {s s' : Monitor ι} {a : Act ι}

/-! ## Steps that leave the account alone -/

omit [DecidableEq ι] in
theorem WakeupInv.of_size_eq_zero (h : s.ring.size.toNat = 0) : WakeupInv s := by
  intro _
  left
  rw [h]
  exact AtLeast.zero _

/-- Whoever is woken stays so, except the actor. -/
theorem Step.woken (h : Step b s a s') (hcondv : s'.condv ⊆ s.condv) {u : ι}
    (hu : u ≠ a.actor) (hwoken : Woken s u) : Woken s' u :=
  ⟨by rw [h.pc_of_ne hu]; exact hwoken.1, fun hmem => hwoken.2 (hcondv hmem)⟩

/-- A step that parks nobody, stores or takes no message, and whose actor was not woken
and does not let go of a message. -/
theorem WakeupInv.keep (hinv : WakeupInv s) (h : Step b s a s') (hcondv : s'.condv ⊆ s.condv)
    (hsize : s'.ring.size = s.ring.size) (hactor : ¬Woken s a.actor)
    (hcarries : (s.pc a.actor).carries = true → (s'.pc a.actor).carries = true) :
    WakeupInv s' := by
  intro hparked
  have hwoken : ∀ u, Woken s u → Woken s' u := by
    intro u hu
    have hne : u ≠ a.actor := by
      rintro rfl
      exact hactor hu
    exact h.woken hcondv hne hu
  rw [hsize]
  rcases hinv (hparked.mono hcondv) with hall | ⟨⟨t, ht⟩, hrest⟩
  · exact .inl (hall.mono le_rfl hwoken)
  · refine .inr ⟨⟨t, ?_⟩, hrest.mono le_rfl hwoken⟩
    by_cases hne : t = a.actor
    · subst hne
      exact hcarries ht
    · rwa [h.pc_of_ne hne]

/-! ## Steps that book a message over -/

/-- A task that does not wait can go anywhere without taking a waiter along. -/
theorem waits_goto {t u : ι} (ht : (s.pc t).waits = false) (hu : (s.pc u).waits = true)
    (p : Pc) : ((s.goto t p).pc u).waits = true := by
  have hne : u ≠ t := by
    rintro rfl
    rw [ht] at hu
    cases hu
  rwa [Monitor.goto_pc_of_ne _ _ _ hne]

section

variable (hmon : MonitorInv s) (hinv : WakeupInv s)

include hmon hinv

omit [DecidableEq ι] in
/-- Nobody carries a message when a task that does not has the mutex. -/
theorem WakeupInv.all_woken {t : ι} (howner : s.mutex = .free ∨ s.mutex.owner = some t)
    (ht : (s.pc t).carries = false) (hparked : s.condv.Nonempty) :
    AtLeast s.ring.size.toNat (Woken s) := by
  rcases hinv hparked with hall | ⟨⟨u, hu⟩, -⟩
  · exact hall
  · have hheld := hmon.exclusive.owner u (Pc.holds_of_carries hu)
    exfalso
    rcases howner with hfree | howner
    · rw [hfree] at hheld
      cases hheld
    · have hut : u = t := Option.some_inj.mp (hheld.symm.trans howner)
      rw [hut, ht] at hu
      cases hu

/-- `push_back` stores a message for the producer itself to signal. -/
theorem WakeupInv.push {t : ι} {item : List UInt8} {r : OsRing}
    (hpc : s.pc t = .putPush item) (hpush : s.ring.pushBack b item = .ok r)
    (hcond : NoFullPut s (.push t item)) :
    WakeupInv ({ s with ring := r }.goto t .putSignal) := by
  intro hparked
  have hitem := hmon.stable.knows t
  rw [hpc] at hitem
  obtain ⟨hok, -⟩ := hmon.stable.valid.pushBack_spec (b := b) (Nat.le_of_eq hitem.symm)
    (room_of_not_full hmon.stable.valid hcond)
  cases hok.symm.trans hpush
  have howner := hmon.exclusive.owner t (by rw [hpc]; rfl)
  have hall := hinv.all_woken hmon (.inr howner) (by rw [hpc]; rfl) hparked
  have hsize : (s.ring.pushed item).size.toNat - 1 ≤ s.ring.size.toNat := by
    rw [OsRing.size_pushed]
    have := Nat.mod_le (s.ring.size.toNat + 1) 65536
    omega
  refine .inr ⟨⟨t, by simp [Pc.carries]⟩, hall.mono hsize fun u hu => ⟨?_, hu.2⟩⟩
  exact waits_goto (by rw [hpc]; rfl) hu.1 _

/-- `pthread_cond_signal` books the producer's message over to a waiter that it wakes. -/
theorem WakeupInv.signal {t : ι} {woken : Finset ι} (hpc : s.pc t = .putSignal)
    (hsub : woken ⊆ s.condv) (hsome : woken = ∅ → s.condv = ∅) :
    WakeupInv ({ s with condv := s.condv \ woken }.goto t .putUnlock) := by
  intro hparked
  have hparked' : s.condv.Nonempty := hparked.mono Finset.sdiff_subset
  obtain ⟨u, hu⟩ : woken.Nonempty := by
    rw [Finset.nonempty_iff_ne_empty]
    intro hempty
    exact hparked'.ne_empty (hsome hempty)
  have hpcs : ∀ v, (s.pc v).waits = true →
      (({ s with condv := s.condv \ woken }.goto t .putUnlock).pc v).waits = true :=
    fun v hv => waits_goto (by rw [hpc]; rfl) hv _
  have hkeep : ∀ v, Woken s v →
      Woken ({ s with condv := s.condv \ woken }.goto t .putUnlock) v :=
    fun v hv => ⟨hpcs v hv.1, fun hmem => hv.2 (Finset.mem_sdiff.mp hmem).1⟩
  left
  rcases hinv hparked' with hall | ⟨-, hrest⟩
  · exact hall.mono le_rfl hkeep
  · -- `u` was parked, and is woken now
    have hmore := hrest.insert hkeep (a := u) (fun hw => hw.2 (hsub hu))
      ⟨hpcs u (hmon.exclusive.parked u (hsub hu)), fun hmem => (Finset.mem_sdiff.mp hmem).2 hu⟩
    refine hmore.mono ?_ fun _ hv => hv
    show s.ring.size.toNat ≤ s.ring.size.toNat - 1 + 1
    omega

/-- A woken consumer that has the mutex again carries the message that belongs to it. -/
theorem WakeupInv.relock {t : ι} {out : List UInt8} {tmo : UInt32} {m : RecLock ι}
    (hpc : s.pc t = .getWait out tmo) (hlock : s.mutex.lock mutexLimit t = some m) :
    WakeupInv ({ s with mutex := m }.goto t (.getLoop out tmo)) := by
  intro hparked
  obtain ⟨hfree, -, -⟩ := RecLock.lock_eq_some.mp hlock
  have hall := hinv.all_woken hmon hfree (by rw [hpc]; rfl) hparked
  refine .inr ⟨⟨t, by simp [Pc.carries]⟩, hall.erase t fun u hne hu => ⟨?_, hu.2⟩⟩
  rw [Monitor.goto_pc_of_ne _ _ _ hne]
  exact hu.1

/-- `pop_front` takes the message of the consumer that executes it. -/
theorem WakeupInv.pop {t : ι} {out : List UInt8} {r : OsRing}
    (hpc : s.pc t = .getPop out) (hpop : s.ring.popFront b = .ok r) :
    WakeupInv ({ s with ring := r }.goto t (.getUnlock out true)) := by
  intro hparked
  have hknows := hmon.stable.knows t
  rw [hpc] at hknows
  have hne := OsRing.toNat_ne_zero_iff.mpr hknows.1
  obtain ⟨hok, -⟩ := hmon.stable.valid.popFront_spec (b := b) hne
  cases hok.symm.trans hpop
  have hless : AtLeast (s.ring.size.toNat - 1) (Woken s) := by
    rcases hinv hparked with hall | ⟨-, hrest⟩
    · exact hall.mono (Nat.sub_le _ _) fun _ hu => hu
    · exact hrest
  left
  show AtLeast s.ring.popped.size.toNat _
  rw [OsRing.size_popped hne]
  refine hless.mono le_rfl fun u hu => ⟨?_, hu.2⟩
  exact waits_goto (by rw [hpc]; rfl) hu.1 _

/-! ## Every step, and every run -/

/-- **The account is kept** by every step of every task; without a removal there is none
that cancels a waiter. -/
theorem WakeupInv.step (hpending : ∀ t, s.pending t = false) (h : Step b s a s')
    (hcond : Undisturbed s a) : WakeupInv s' := by
  have hstep := h
  cases h
  case push t item r hpc hpush => exact hinv.push hmon hpc hpush hcond.1
  case signal t woken hpc hsub hsome => exact hinv.signal hmon hpc hsub hsome
  case relock t out tmo m hpc hwoken hlock => exact hinv.relock hmon hpc hlock
  case pop t out r hpc hpop => exact hinv.pop hmon hpc hpop
  -- the ring is found empty: no message to account for
  case loopWait hsize hunlock => exact .of_size_eq_zero (congrArg UInt16.toNat hsize)
  case testNone hsize => exact .of_size_eq_zero (congrArg UInt16.toNat hsize)
  case frontNone t out hpc hfront =>
    rw [OsRing.front] at hfront
    split at hfront
    · exact .of_size_eq_zero ((OsRing.empty_iff _).mp ‹_›)
    · cases hfront
  case wake t hparked =>
    refine hinv.keep hstep (Finset.erase_subset _ _) rfl ?_ fun h => h
    exact fun hwoken => hwoken.2 hparked
  case remove t => exact absurd rfl (hcond.2 t)
  case cancel t out tmo hremoved hpc =>
    rw [hpending t] at hremoved
    cases hremoved
  all_goals
    refine hinv.keep hstep subset_rfl rfl ?_ ?_
    · simp_all [Woken, Act.actor, Pc.waits]
    · simp_all [Act.actor, Pc.carries]

end

/-- **No lost wakeup**: in every state that an undisturbed use of the queue reaches, if
the mutex is free, a message is stored and a consumer is parked, then some consumer has
been woken and is on its way to lock the mutex. -/
theorem no_lost_wakeup {itemSize itemCount : UInt16}
    (hcount : b.ndebug = true → OsRing.countOk itemCount = true)
    (hreach : (ringPthread ι b itemSize itemCount).ReachableWhen Undisturbed s)
    (hfree : s.mutex = .free) (hmsg : s.ring.size ≠ 0) (hparked : s.condv.Nonempty) :
    ∃ t, Woken s t := by
  have hall : MonitorInv s ∧ WakeupInv s ∧ ∀ t, s.pending t = false := by
    refine hreach.invariant
      (I := fun s => MonitorInv s ∧ WakeupInv s ∧ ∀ t, s.pending t = false) ?_ ?_
    · intro s hinit
      have hmon := MonitorInv.init hcount hinit
      obtain ⟨-, -, hcondv, -, hpending, -⟩ := hinit
      refine ⟨hmon, fun hne => ?_, hpending⟩
      rw [hcondv] at hne
      exact absurd rfl hne.ne_empty
    · rintro s a s' ⟨hmon, hinv, hpending⟩ hcond ⟨-, h⟩
      refine ⟨hmon.step h hcond.1, hinv.step hmon hpending h hcond, fun t => ?_⟩
      rw [h.pending_eq hcond.2]
      exact hpending t
  obtain ⟨hmon, hinv, -⟩ := hall
  rcases hinv hparked with hwoken | ⟨⟨t, ht⟩, -⟩
  · exact hwoken.exists (Nat.pos_of_ne_zero (OsRing.toNat_ne_zero_iff.mpr hmsg))
  · -- a carrier would own the mutex
    have howner := hmon.exclusive.owner t (Pc.holds_of_carries ht)
    rw [hfree] at howner
    cases howner

/-- Two consumers wait for one message. -/
theorem no_lost_wakeup_two_waiters :
    ∃ s : Monitor (Fin 3), s.mutex = .free ∧ s.ring.contents = [[7]] ∧ s.condv = {2} ∧
      ∃ t, Woken s t := by
  have h0 : (ringPthread (Fin 3) ⟨false⟩ 1 2).Run Undisturbed [] _ :=
    .start (init_start ⟨false⟩ .zeroed 1 2 rfl)
  have h1 := h0.next (.callGet 1 [0] 1) ⟨trivial, nofun⟩ ⟨rfl, .callGet rfl rfl⟩
  have h2 := h1.next (.lock 1) ⟨trivial, nofun⟩ ⟨rfl, .lockGet rfl rfl⟩
  have h3 := h2.next (.loop 1) ⟨trivial, nofun⟩ ⟨rfl, .loopWait rfl (by decide) rfl rfl⟩
  have h4 := h3.next (.callGet 2 [0] 1) ⟨trivial, nofun⟩ ⟨rfl, .callGet rfl rfl⟩
  have h5 := h4.next (.lock 2) ⟨trivial, nofun⟩ ⟨rfl, .lockGet rfl rfl⟩
  have h6 := h5.next (.loop 2) ⟨trivial, nofun⟩ ⟨rfl, .loopWait rfl (by decide) rfl rfl⟩
  have h7 := h6.next (.callPut 0 [7]) ⟨trivial, nofun⟩ ⟨rfl, .callPut rfl rfl⟩
  have h8 := h7.next (.lock 0) ⟨trivial, nofun⟩ ⟨rfl, .lockPut rfl rfl⟩
  have h9 := h8.next (.push 0 [7]) ⟨rfl, nofun⟩ ⟨rfl, .push rfl rfl⟩
  have h10 := h9.next (.signal 0 {1}) ⟨trivial, nofun⟩
    ⟨rfl, .signal rfl (by decide) (by decide)⟩
  have h11 := h10.next (.unlock 0) ⟨trivial, nofun⟩ ⟨rfl, .unlockPut rfl rfl⟩
  exact ⟨_, rfl, rfl, by decide,
    no_lost_wakeup (by decide) ⟨_, h11⟩ rfl (by decide) ⟨2, by decide⟩⟩

end Poski.Posix
