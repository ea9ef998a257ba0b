import Poski.Posix.GetTimeout
import Poski.Posix.RingPthreadFifo
import Poski.Posix.Wakeup

/-!
# The POSIX Queue Comes to Rest

Once no more calls are made, the tasks execute only finitely many statements, whatever their
order: a woken consumer that finds the queue empty again waits for another signal, and each
`put` signals once. When nobody can execute a statement any more, every operation has returned,
but for the `get`s that wait on an empty queue.

## Main results

- `Pc.cost` : how many statements a task may still cause
- `cost_step` : every statement is paid for
- `length_le_cost` : a bound on the number of statements
- `Quiescent`, `quiescent_of_stuck` : where a queue comes to rest
- `ringPthread_quiesces` : every use of the queue comes to rest
-/

namespace Poski.Posix

open Lib TransitionSystem

universe u

variable {ι : Type u}

/-! ## Statements and their cost -/

/-- A task executes a statement of one of the queue's operations. -/
def Act.statement : Act ι → Bool
  | .lock _ | .push _ _ | .signal _ _ | .loop _ | .relock _ | .test _ | .front _ | .copy _
  | .pop _ _ | .read _ | .unlock _ | .returnPut _ _ | .returnGet _ _ _
  | .returnIsEmpty _ _ => true
  | _ => false

/-- How many statements a task at this place may still cause, among `n` tasks. A `put` is charged
for the waiters that its signal may wake, each of which may go through its loop once more. -/
def Pc.cost (n : ℕ) : Pc → ℕ
  | .putLock _ => 8 * n + 5
  | .putPush _ => 8 * n + 4
  | .putSignal => 8 * n + 3
  | .getLock _ _ | .getWait _ _ => 8
  | .getLoop _ _ => 7
  | .getTest _ => 6
  | .getFront _ => 5
  | .getCopy _ _ | .sizeLock => 4
  | .getPop _ | .sizeRead => 3
  | .putUnlock | .getUnlock _ _ | .sizeUnlock _ => 2
  | .putReturn | .getReturn _ _ | .sizeReturn _ => 1
  | .idle | .cancelled | .terminated => 0

variable [DecidableEq ι]

/-- A parked task causes no statement. -/
def Monitor.cost (n : ℕ) (s : Monitor ι) (t : ι) : ℕ :=
  if t ∈ s.condv then 0 else (s.pc t).cost n

/-- What the tasks of `F` may still cause together. -/
def Monitor.totalCost (F : Finset ι) (s : Monitor ι) : ℕ :=
  if s.halted = none then ∑ t ∈ F, s.cost F.card t else 0

/-- What a statement makes another task more costly by: a signal wakes it. -/
def Act.gain : Act ι → ℕ
  | .signal _ _ => 8
  | _ => 0

variable {b : Build} {s s' : Monitor ι} {a : Act ι}

/-- The task that executes a statement is not parked. -/
theorem Step.actor_not_parked (hexcl : Exclusive s) (h : Step b s a s')
    (hstatement : a.statement = true) : a.actor ∉ s.condv := by
  intro hparked
  have hwaits := hexcl.parked _ hparked
  cases h
  case relock t out tmo m hpc hwoken hlock => exact hwoken hparked
  all_goals simp_all [Act.actor, Act.statement, Pc.waits]

theorem Monitor.cost_le (n : ℕ) (s : Monitor ι) (t : ι) : s.cost n t ≤ (s.pc t).cost n := by
  unfold Monitor.cost
  split
  · exact Nat.zero_le _
  · exact le_rfl

/-- The actor pays for its statement, and for what the others gain. -/
theorem Step.actor_pays (hexcl : Exclusive s) (h : Step b s a s') (hstatement : a.statement = true)
    (hrunning : s'.halted = none) (n : ℕ) :
    s'.cost n a.actor + a.gain * n < s.cost n a.actor := by
  have hcost : s.cost n a.actor = (s.pc a.actor).cost n :=
    if_neg (h.actor_not_parked hexcl hstatement)
  have hle := Monitor.cost_le n s' a.actor
  rw [hcost]
  cases h
  case loopWait t out tmo m hpc htmo hsize hunlock =>
    -- the task parks itself
    have hparked : t ∈ insert t s.condv := Finset.mem_insert_self t s.condv
    simp [Monitor.cost, Act.actor, Act.gain, hparked, hpc, Pc.cost]
  all_goals
    simp_all [Act.actor, Act.gain, Pc.cost, Act.statement]
    try omega

/-- Only a signal makes another task more costly. -/
theorem Step.others_gain (hexcl : Exclusive s) (h : Step b s a s') (hstatement : a.statement = true)
    (n : ℕ) {u : ι} (hu : u ≠ a.actor) : s'.cost n u ≤ s.cost n u + a.gain := by
  have hle := Monitor.cost_le n s' u
  rw [h.pc_of_ne hu] at hle
  by_cases hparked : u ∈ s.condv
  · cases hpc : s.pc u with
    | getWait out tmo =>
      by_cases hparked' : u ∈ s'.condv
      · simp [Monitor.cost, hparked']
      · cases h
        case signal t woken hpc' hsub hsome =>
          rw [hpc] at hle
          exact hle.trans (Nat.le_add_left 8 _)
        case loopWait => exact absurd (Finset.mem_insert_of_mem hparked) hparked'
        all_goals first
          | exact absurd hparked hparked'
          | cases hstatement
    | _ =>
      -- only waiting tasks are parked
      have hwaits := hexcl.parked u hparked
      rw [hpc] at hwaits
      cases hwaits
  · have hcost : s.cost n u = (s.pc u).cost n := if_neg hparked
    rw [hcost]
    exact hle.trans (Nat.le_add_right _ _)

theorem Step.actor_active (h : Step b s a s') (hstatement : a.statement = true) :
    s.pc a.actor ≠ .idle := by
  intro hidle
  cases h <;> simp_all [Act.actor, Act.statement]

variable {F : Finset ι}

/-- **Every statement is paid for.** -/
theorem cost_step (hexcl : Exclusive s) (hactive : ∀ t ∉ F, s.pc t = .idle)
    (hrunning : s.halted = none) (h : Step b s a s') (hstatement : a.statement = true) :
    s'.totalCost F < s.totalCost F := by
  have hactor : a.actor ∈ F := by
    by_contra hout
    exact h.actor_active hstatement (hactive _ hout)
  have htotal : s.totalCost F = ∑ t ∈ F, s.cost F.card t := if_pos hrunning
  rw [htotal]
  by_cases hrunning' : s'.halted = none
  · rw [Monitor.totalCost, if_pos hrunning']
    exact sum_lt_of_pays hactor a.gain (fun u _ hu => h.others_gain hexcl hstatement F.card hu)
      (h.actor_pays hexcl hstatement hrunning' F.card)
  · -- the process has come to its end
    rw [Monitor.totalCost, if_neg hrunning']
    refine (Finset.sum_pos' (fun _ _ => Nat.zero_le _) ⟨a.actor, hactor, ?_⟩)
    have hcost : s.cost F.card a.actor = (s.pc a.actor).cost F.card :=
      if_neg (h.actor_not_parked hexcl hstatement)
    rw [hcost]
    cases h <;> simp_all [Act.actor, Act.statement, Pc.cost]

variable {itemSize itemCount : UInt16}

/-- **A bound on the statements** that the tasks execute while no more calls are made. -/
theorem length_le_cost (hexcl : Exclusive s) (hactive : ∀ t ∉ F, s.pc t = .idle)
    {as : List (Act ι)} (hmore : ((ringPthread ι b itemSize itemCount).resumed s).Run
      (fun _ a => a.statement = true) as s') : as.length ≤ s.totalCost F := by
  have hall : Exclusive s' ∧ (∀ t ∉ F, s'.pc t = .idle) ∧
      as.length + s'.totalCost F ≤ s.totalCost F := by
    refine hmore.invariant (I := fun as s' => Exclusive s' ∧ (∀ t ∉ F, s'.pc t = .idle) ∧
      as.length + s'.totalCost F ≤ s.totalCost F) ?_ ?_
    · rintro _ rfl
      exact ⟨hexcl, hactive, by simp⟩
    · rintro as s₁ a s₂ ⟨hexcl, hactive, hle⟩ hstatement ⟨hrunning, h⟩
      have hless := cost_step hexcl hactive hrunning h hstatement
      refine ⟨hexcl.step h, fun t ht => ?_, ?_⟩
      · rw [h.pc_of_ne, hactive t ht]
        rintro rfl
        exact h.actor_active hstatement (hactive _ ht)
      · rw [List.length_append, List.length_singleton]
        omega
  exact (Nat.le_add_right _ _).trans hall.2.2

/-! ## Where the queue comes to rest -/

/-- What holds of the tasks in every run in which none is removed. -/
structure TaskInv (s : Monitor ι) : Prop where
  get : GetInv s
  alive : ∀ t, s.pc t ≠ .terminated
  timed : ∀ t out tmo, s.pc t = .getWait out tmo → tmo ≠ 0
  finite : {t | s.pc t ≠ .idle}.Finite

theorem TaskInv.init (h : (ringPthread ι b itemSize itemCount).init s) : TaskInv s := by
  have hget := GetInv.init h
  obtain ⟨-, -, -, hidle, -, -⟩ := h
  exact ⟨hget, by simp [hidle], by simp [hidle], by simp [hidle]⟩

theorem TaskInv.step (hinv : TaskInv s) (h : Step b s a s') (hremove : NoRemove s a) :
    TaskInv s' := by
  have hpending := hinv.get.pending
  refine ⟨hinv.get.step h hremove, fun t => ?_, fun t out tmo => ?_, ?_⟩
  · by_cases hactor : t = a.actor
    · subst hactor
      have halive := hinv.alive a.actor
      have hcancelled := hinv.get.owner.not_cancelled a.actor
      cases h <;> simp_all [Act.actor]
    · rw [h.pc_of_ne hactor]
      exact hinv.alive t
  · by_cases hactor : t = a.actor
    · subst hactor
      have htimed := hinv.timed a.actor
      cases h
      case loopWait t out' tmo' m hpc htmo hsize hunlock =>
        intro hto
        simp only [Act.actor, Monitor.goto_pc_self, Pc.getWait.injEq] at hto
        exact hto.2 ▸ htmo
      all_goals simp_all [Act.actor]
    · rw [h.pc_of_ne hactor]
      exact hinv.timed t out tmo
  · refine (hinv.finite.insert a.actor).subset fun t ht => ?_
    by_cases hactor : t = a.actor
    · exact .inl hactor
    · rw [Set.mem_ofPred_eq, h.pc_of_ne hactor] at ht
      exact .inr ht

/-- Every operation has returned, but for those that wait on an empty queue. -/
structure Quiescent (s : Monitor ι) : Prop where
  mutex : s.mutex = .free
  tasks : ∀ t, s.pc t = .idle ∨
    t ∈ s.condv ∧ ∃ out tmo, s.pc t = .getWait out tmo ∧ tmo ≠ 0
  empty : s.condv.Nonempty → s.ring.contents = []

/-- Nobody can execute a statement. -/
def Stuck (b : Build) (s : Monitor ι) : Prop :=
  ∀ a s', Step b s a s' → a.statement = false

/-- What a task with the mutex does is a statement. -/
theorem Step.statement_of_holds (h : Step b s a s') (hholds : (s.pc a.actor).holds = true)
    (hregular : a.regular = true) : a.statement = true := by
  cases h <;> simp_all [Act.actor, Act.statement, Act.regular, Pc.holds]

theorem TaskInv.free_of_stuck (hinv : TaskInv s) (hrunning : s.halted = none)
    (hstuck : Stuck b s) : s.mutex = .free := by
  cases hmutex : s.mutex with
  | free => rfl
  | held u n =>
    have howner : s.mutex.owner = some u := by rw [hmutex, RecLock.owner_held]
    have hholds := (hinv.get.owner.held howner).2
    obtain ⟨a, s', h, rfl, hregular, -⟩ := exists_owner_step (b := b) hinv.get hrunning howner
    have hstatement := h.statement_of_holds hholds hregular
    rw [hstuck a s' h] at hstatement
    cases hstatement

/-- A free mutex can be locked. -/
theorem lock_free (t : ι) : RecLock.free.lock mutexLimit t = some (.held t 0) := by
  rw [RecLock.lock_eq_some]
  exact ⟨.inl rfl, by simp [mutexLimit], rfl⟩

theorem TaskInv.tasks_of_stuck (hinv : TaskInv s) (hrunning : s.halted = none)
    (hstuck : Stuck b s) (t : ι) : s.pc t = .idle ∨
      t ∈ s.condv ∧ ∃ out tmo, s.pc t = .getWait out tmo ∧ tmo ≠ 0 := by
  have hfree := hinv.free_of_stuck hrunning hstuck
  have hlock : s.mutex.lock mutexLimit t = some (.held t 0) := by rw [hfree, lock_free]
  have hno : ∀ {a s'}, Step b s a s' → a.statement = true → False := by
    intro a s' h hstatement
    rw [hstuck a s' h] at hstatement
    cases hstatement
  have hholds : (s.pc t).holds = false := by
    rw [Bool.eq_false_iff]
    intro hholds
    have howner := hinv.get.exclusive.owner t hholds
    rw [hfree] at howner
    cases howner
  cases hpc : s.pc t with
  | idle => exact .inl rfl
  | putLock item => exact (hno (.lockPut hpc hlock) rfl).elim
  | putReturn => exact (hno (.returnPut hpc) rfl).elim
  | getLock out tmo => exact (hno (.lockGet hpc hlock) rfl).elim
  | getWait out tmo =>
    refine .inr ⟨?_, out, tmo, rfl, hinv.timed t out tmo hpc⟩
    by_contra hwoken
    exact hno (.relock hpc hwoken hlock) rfl
  | getReturn out found => exact (hno (.returnGet hpc) rfl).elim
  | sizeLock => exact (hno (.lockSize hpc hlock) rfl).elim
  | sizeReturn n => exact (hno (.returnIsEmpty hpc) rfl).elim
  | cancelled => exact absurd hpc (hinv.get.owner.not_cancelled t)
  | terminated => exact absurd hpc (hinv.alive t)
  | _ =>
    rw [hpc] at hholds
    cases hholds

theorem TaskInv.of_undisturbed
    (hreach : (ringPthread ι b itemSize itemCount).ReachableWhen Undisturbed s) : TaskInv s := by
  obtain ⟨as, hrun⟩ := hreach
  refine TransitionSystem.ReachableWhen.invariant (P := NoRemove) (fun _ => TaskInv.init) ?_
    ⟨as, hrun.mono fun _ _ hcond => hcond.2⟩
  exact fun _ _ _ hinv hcond hstep => hinv.step hstep.2 hcond

/-! ## Runs -/

/-- A task at this place has not put its message yet. -/
def Pc.puts (p : Pc) : Bool := !p.toPush.isEmpty

/-- A task at this place has a message to return. -/
def Pc.returns (p : Pc) : Bool := !p.toReturn.isEmpty

/-- Inside `pos_queue_get`. -/
def Pc.gets : Pc → Bool
  | .getLock _ _ | .getLoop _ _ | .getWait _ _ | .getTest _ | .getFront _ | .getCopy _ _
  | .getPop _ | .getUnlock _ _ | .getReturn _ _ => true
  | _ => false

def Act.callsGet : Act ι → Bool
  | .callGet _ _ _ => true
  | _ => false

def Act.returnsGet : Act ι → Bool
  | .returnGet _ _ _ => true
  | _ => false

/-- Every `get` that has been called has returned, but for those under way. -/
theorem gets_flow {as : List (Act ι)}
    (hrun : (ringPthread ι b itemSize itemCount).Run Undisturbed as s) :
    (members Pc.gets s.pc).Finite ∧
      as.countP Act.callsGet = as.countP Act.returnsGet + population Pc.gets s.pc := by
  refine population_of_run Monitor.pc Act.actor Act.callsGet Act.returnsGet
    (fun s hinit t => ?_) ?_ ?_ hrun
  · rw [hinit.2.2.2.1 t]
    rfl
  · exact fun s a s' hstep t ht => hstep.2.pc_of_ne ht
  · intro s a s' hreach hcond hstep
    have hpending := (TaskInv.of_undisturbed hreach).get.pending
    obtain ⟨-, h⟩ := hstep
    cases h
    case cancel t out tmo hmarked hpc =>
      rw [hpending t] at hmarked
      cases hmarked
    all_goals simp_all [Act.actor, Act.callsGet, Act.returnsGet, Pc.gets]

variable (hcount : b.ndebug = true → OsRing.countOk itemCount = true)

include hcount

/-- An undisturbed use does not end the process. -/
theorem running_of_undisturbed
    (hreach : (ringPthread ι b itemSize itemCount).ReachableWhen Undisturbed s) :
    s.halted = none := by
  have hall : MonitorInv s ∧ s.halted = none := by
    refine hreach.invariant (I := fun s => MonitorInv s ∧ s.halted = none) ?_ ?_
    · intro s hinit
      have hmon := MonitorInv.init hcount hinit
      obtain ⟨-, -, -, -, -, hrunning⟩ := hinit
      exact ⟨hmon, hrunning⟩
    · rintro s a s' ⟨hmon, hrunning⟩ hcond ⟨-, h⟩
      exact ⟨hmon.step h hcond.1, (hmon.not_halted h hcond.1).trans hrunning⟩
  exact hall.2

/-- **Where nobody can execute a statement**, every operation has returned, but for the `get`s
that wait on an empty queue. -/
theorem quiescent_of_stuck
    (hreach : (ringPthread ι b itemSize itemCount).ReachableWhen Undisturbed s)
    (hstuck : Stuck b s) : Quiescent s := by
  have hinv := TaskInv.of_undisturbed hreach
  have hrunning := running_of_undisturbed hcount hreach
  have hfree := hinv.free_of_stuck hrunning hstuck
  have htasks := hinv.tasks_of_stuck hrunning hstuck
  refine ⟨hfree, htasks, fun hparked => ?_⟩
  have hempty : s.ring.size = 0 := by
    by_contra hmsg
    -- a consumer that has been woken is not at rest
    obtain ⟨t, hwaits, hwoken⟩ := no_lost_wakeup hcount hreach hfree hmsg hparked
    rcases htasks t with hidle | ⟨hin, -⟩
    · rw [hidle] at hwaits
      cases hwaits
    · exact hwoken hin
  rw [← List.length_eq_zero_iff, OsRing.length_contents, hempty]
  rfl

/-- **The queue comes to rest**: from every state that an undisturbed use of the queue reaches,
the tasks execute only so many statements without another call, in any order, and where nobody
can execute one any more, every operation has returned, but for the `get`s that wait on an empty
queue. -/
theorem ringPthread_quiesces
    (hreach : (ringPthread ι b itemSize itemCount).ReachableWhen Undisturbed s) :
    ∃ F : Finset ι, (∀ t, t ∈ F ↔ s.pc t ≠ .idle) ∧
      ∀ as s', ((ringPthread ι b itemSize itemCount).resumed s).Run
          (fun s a => a.statement = true ∧ NoFullPut s a) as s' →
        as.length ≤ ∑ t ∈ F, s.cost F.card t ∧ (Stuck b s' → Quiescent s') := by
  have hinv := TaskInv.of_undisturbed hreach
  refine ⟨hinv.finite.toFinset, fun t => by simp, fun as s' hmore => ⟨?_, fun hstuck => ?_⟩⟩
  · have hactive : ∀ t ∉ hinv.finite.toFinset, s.pc t = .idle := by
      intro t ht
      simpa using ht
    have hlen := length_le_cost hinv.get.exclusive hactive (hmore.mono fun _ _ hcond => hcond.1)
    rwa [Monitor.totalCost, if_pos (running_of_undisturbed hcount hreach)] at hlen
  · obtain ⟨bs, hrun⟩ := hreach
    refine quiescent_of_stuck hcount ⟨_, hrun.resume hmore fun s a hcond => ⟨hcond.2, ?_⟩⟩ hstuck
    rintro t rfl
    cases hcond.1

omit hcount in
/-- A consumer waits, and a producer is about to signal. -/
theorem ringPthread_quiesces_signal :
    ∃ s : Monitor Bool, s.pc true = .getWait [0] 1 ∧ s.pc false = .putSignal ∧
      ∃ F : Finset Bool, (∀ t, t ∈ F ↔ s.pc t ≠ .idle) ∧
        ∀ as s', ((ringPthread Bool ⟨false⟩ 1 2).resumed s).Run
            (fun s a => a.statement = true ∧ NoFullPut s a) as s' →
          as.length ≤ ∑ t ∈ F, s.cost F.card t ∧ (Stuck ⟨false⟩ s' → Quiescent s') := by
  have h0 : (ringPthread Bool ⟨false⟩ 1 2).Run Undisturbed [] _ :=
    .start (init_start ⟨false⟩ .zeroed 1 2 rfl)
  have h1 := h0.next (.callGet true [0] 1) ⟨trivial, nofun⟩ ⟨rfl, .callGet rfl rfl⟩
  have h2 := h1.next (.lock true) ⟨trivial, nofun⟩ ⟨rfl, .lockGet rfl rfl⟩
  have h3 := h2.next (.loop true) ⟨trivial, nofun⟩ ⟨rfl, .loopWait rfl (by decide) rfl rfl⟩
  have h4 := h3.next (.callPut false [7]) ⟨trivial, nofun⟩ ⟨rfl, .callPut rfl rfl⟩
  have h5 := h4.next (.lock false) ⟨trivial, nofun⟩ ⟨rfl, .lockPut rfl rfl⟩
  have h6 := h5.next (.push false [7]) ⟨rfl, nofun⟩ ⟨rfl, .push rfl rfl⟩
  exact ⟨_, rfl, rfl, ringPthread_quiesces (by decide) ⟨_, h6⟩⟩

/-! ## Enough puts -/

theorem MonitorInv.of_undisturbed
    (hreach : (ringPthread ι b itemSize itemCount).ReachableWhen Undisturbed s) : MonitorInv s :=
  hreach.invariant (fun _ => MonitorInv.init hcount) fun _ _ _ hinv hcond hstep =>
    hinv.step hstep.2 hcond.1

/-- The messages that have been put are those of the calls, but for the calls under way, and those
that have been returned are those taken, but for the messages under way. -/
theorem messages_flow {as : List (Act ι)}
    (hrun : (ringPthread ι b itemSize itemCount).Run Undisturbed as s) :
    as.countP (fun a => a.given.isSome) =
        as.countP (fun a => a.pushed.isSome) + population Pc.puts s.pc ∧
      as.countP (fun a => a.popped.isSome) =
        as.countP (fun a => a.returned.isSome) + population Pc.returns s.pc := by
  have hputs (p : Pc) : p.toPush.length = p.puts.toNat := by cases p <;> rfl
  have hreturns (p : Pc) : p.toReturn.length = p.returns.toNat := by
    cases p <;> first | rfl | (rename_i found; cases found <;> rfl)
  have hone {α : Type} (o : Option α) : o.toList.length = o.isSome.toNat := by cases o <;> rfl
  have hidle {s : Monitor ι} (h : (ringPthread ι b itemSize itemCount).init s) (t : ι) :
      s.pc t = .idle := h.2.2.2.1 t
  have hhands : ∀ s a s', (ringPthread ι b itemSize itemCount).ReachableWhen Undisturbed s →
      Undisturbed s a → (ringPthread ι b itemSize itemCount).step s a s' → _ :=
    fun s a s' hreach hcond hstep => (MonitorInv.of_undisturbed hcount hreach).handover
      hstep.2 hcond.1 hstep.1
  refine ⟨?_, ?_⟩
  · refine (population_of_run Monitor.pc Act.actor (fun a => a.given.isSome)
      (fun a => a.pushed.isSome) (fun s hinit t => ?_) ?_ ?_ hrun).2
    · rw [hidle hinit]
      rfl
    · exact fun s a s' hstep t ht => hstep.2.pc_of_ne ht
    · intro s a s' hreach hcond hstep
      have hlen := congrArg List.length (hhands s a s' hreach hcond hstep).1
      rwa [List.length_append, List.length_append, hputs, hputs, hone, hone] at hlen
  · refine (population_of_run Monitor.pc Act.actor (fun a => a.popped.isSome)
      (fun a => a.returned.isSome) (fun s hinit t => ?_) ?_ ?_ hrun).2
    · rw [hidle hinit]
      rfl
    · exact fun s a s' hstep t ht => hstep.2.pc_of_ne ht
    · intro s a s' hreach hcond hstep
      have hlen := congrArg List.length (hhands s a s' hreach hcond hstep).2
      rwa [List.length_append, List.length_append, hreturns, hreturns, hone, hone] at hlen

/-- **Enough puts let every call return**: if at least as many `put`s as `get`s have been called,
then no task waits where nobody can execute a statement any more. -/
theorem all_return_of_enough_puts {as : List (Act ι)}
    (hrun : (ringPthread ι b itemSize itemCount).Run Undisturbed as s) (hstuck : Stuck b s)
    (henough : as.countP Act.callsGet ≤ as.countP fun a => a.given.isSome) (t : ι) :
    s.pc t = .idle := by
  have hquiet := quiescent_of_stuck hcount ⟨as, hrun⟩ hstuck
  rcases hquiet.tasks t with hidle | ⟨hparked, out, tmo, hpc, -⟩
  · exact hidle
  exfalso
  obtain ⟨hput, hreturned⟩ := messages_flow hcount hrun
  obtain ⟨hfinite, hget⟩ := gets_flow hrun
  -- all puts have put their messages, and all messages that were taken have been returned
  have hnone (p : Pc → Bool) (hidle : p .idle = false)
      (hwait : ∀ out tmo, p (.getWait out tmo) = false) : population p s.pc = 0 := by
    have hempty : ∀ u, p (s.pc u) = false := by
      intro u
      rcases hquiet.tasks u with h | ⟨-, out, tmo, h, -⟩
      · rw [h, hidle]
      · rw [h, hwait]
    have hmembers : members p s.pc = ∅ := by
      ext u
      simp [members, hempty u]
    rw [population, hmembers, Set.ncard_empty]
  rw [hnone Pc.puts rfl fun _ _ => rfl] at hput
  rw [hnone Pc.returns rfl fun _ _ => rfl] at hreturned
  -- the ring is empty, so as many messages were taken as were put
  have hfifo := (ringPthread_fifo hcount (hrun.mono fun _ _ hcond => hcond.1)).1
  rw [hquiet.empty ⟨t, hparked⟩, List.append_nil] at hfifo
  have htaken : as.countP (fun a => a.pushed.isSome) = as.countP (fun a => a.popped.isSome) := by
    rw [← List.length_filterMap_eq_countP, ← List.length_filterMap_eq_countP, hfifo]
  have hsuccess : as.countP (fun a => a.returned.isSome) ≤ as.countP Act.returnsGet := by
    apply List.countP_mono_left
    intro a _ ha
    cases a <;> first | rfl | cases ha
  have hwaiting : 0 < population Pc.gets s.pc := by
    rw [Nat.pos_iff_ne_zero, ne_eq, population_eq_zero hfinite, not_forall]
    exact ⟨t, by simp [hpc, Pc.gets]⟩
  omega

omit hcount in
/-- Where all tasks are outside the operations, nobody can execute a statement. -/
theorem stuck_of_idle (hidle : ∀ t, s.pc t = .idle) : Stuck b s := by
  intro a s' h
  cases h <;> simp_all [Act.statement]

omit hcount in
/-- One message is put and taken. -/
theorem all_return_of_enough_puts_one :
    ∃ s : Monitor Bool, (ringPthread Bool ⟨false⟩ 1 2).ReachableWhen Undisturbed s ∧
      s.ring.writeIndex = 1 ∧ ∀ t, s.pc t = .idle := by
  have h0 : (ringPthread Bool ⟨false⟩ 1 2).Run Undisturbed [] _ :=
    .start (init_start ⟨false⟩ .zeroed 1 2 rfl)
  have h1 := h0.next (.callPut false [7]) ⟨trivial, nofun⟩ ⟨rfl, .callPut rfl rfl⟩
  have h2 := h1.next (.callGet true [0] 5) ⟨trivial, nofun⟩ ⟨rfl, .callGet rfl rfl⟩
  have h3 := h2.next (.lock false) ⟨trivial, nofun⟩ ⟨rfl, .lockPut rfl rfl⟩
  have h4 := h3.next (.push false [7]) ⟨rfl, nofun⟩ ⟨rfl, .push rfl rfl⟩
  have h5 := h4.next (.signal false ∅) ⟨trivial, nofun⟩ ⟨rfl, .signal rfl (by decide) fun _ => rfl⟩
  have h6 := h5.next (.unlock false) ⟨trivial, nofun⟩ ⟨rfl, .unlockPut rfl rfl⟩
  have h7 := h6.next (.returnPut false .ok) ⟨trivial, nofun⟩ ⟨rfl, .returnPut rfl⟩
  have h8 := h7.next (.lock true) ⟨trivial, nofun⟩ ⟨rfl, .lockGet rfl rfl⟩
  have h9 := h8.next (.loop true) ⟨trivial, nofun⟩ ⟨rfl, .loopPass rfl (.inr (by decide))⟩
  have h10 := h9.next (.test true) ⟨trivial, nofun⟩ ⟨rfl, .testSome rfl (by decide)⟩
  have h11 := h10.next (.front true) ⟨trivial, nofun⟩ ⟨rfl, .frontSome rfl rfl⟩
  have h12 := h11.next (.copy true) ⟨trivial, nofun⟩ ⟨rfl, .copy rfl rfl⟩
  have h13 := h12.next (.pop true [7]) ⟨trivial, nofun⟩ ⟨rfl, .pop rfl rfl⟩
  have h14 := h13.next (.unlock true) ⟨trivial, nofun⟩ ⟨rfl, .unlockGet rfl rfl⟩
  have h15 := h14.next (.returnGet true _ _) ⟨trivial, nofun⟩ ⟨rfl, .returnGet rfl⟩
  exact ⟨_, ⟨_, h15⟩, rfl, all_return_of_enough_puts (by decide) h15
    (stuck_of_idle (Bool.forall_bool.mpr ⟨rfl, rfl⟩)) (by decide)⟩

end Poski.Posix
