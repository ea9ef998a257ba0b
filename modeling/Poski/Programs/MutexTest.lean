import Poski.Lib.LockInvariant
import Poski.Posix.MutexCall
import Poski.Programs.TestProgram

/-!
# The Mutex Test

`test_os_mutex.c`, run over the mutex of the POSIX port. In each round a task locks the mutex,
writes its value into every byte of a shared buffer, reads all of them back, clears the
buffer and unlocks the mutex; in every fifth round it locks and unlocks once more for each
byte. The tasks do not take turns here: between two accesses to the buffer, or two calls of
the port, the other task may run.

- `guarding` : what the buffer contains, by where the owner of the mutex is
- `turn` : what one step does, from each place
- `mutexTest_passes` : the test passes, when its first task has run often enough
-/

namespace Poski.Programs.MutexTest

open Lib Posix

/-! ## The program -/

def TEST_ITERATIONS : ℕ := 10

/-- `TASK1_VALUE` and `TASK2_VALUE`. -/
def testValue : TestTask → UInt8
  | .task1 => 0x11
  | .task2 => 0x22

/-- An index of `s_buffer`. -/
abbrev Index := Fin TEST_ITERATIONS

def Index.first : Index := ⟨0, by decide⟩

def Index.next? (i : Index) : Option Index :=
  if h : i + 1 < TEST_ITERATIONS then some ⟨i + 1, h⟩ else none

/-- Where a task is in `test_mutex_nested`, in which round and at which byte. -/
inductive Pc where
  | lock (round : ℕ)
  | nest (round : ℕ) (i : Index)
  | test (round : ℕ) (i : Index)
  | write (round : ℕ) (i : Index)
  | check (round : ℕ) (i : Index)
  | unnest (round : ℕ) (i : Index)
  | clear (round : ℕ) (i : Index)
  | unlock (round : ℕ)
  | sleep (round : ℕ)
  deriving DecidableEq

structure State where
  mutex : RecLock TestTask
  buffer : Index → UInt8
  pc : TestTask → Pc
  exited : Option Exit

/-- Task `t` goes to `p`. -/
def State.goto (s : State) (t : TestTask) (p : Pc) : State :=
  { s with pc := Function.update s.pc t p }

/-- `VerifyOrQuit` and `SuccessOrQuit`: the task goes on to `s'`, or the program ends. -/
def verifyOrQuit (cond : Bool) (s s' : State) : State :=
  if cond then s' else { s with exited := some .fail }

/-- `bool recursive = (round % 5 == 0)` -/
def recursive (round : ℕ) : Bool := round % 5 == 0

/-- The first loop, at byte `i`. -/
def fill (round : ℕ) (i : Index) : Pc :=
  if recursive round then .nest round i else .test round i

/-- The rest of the second loop, after byte `i`. -/
def afterCheck (round : ℕ) (i : Index) : Pc :=
  match i.next? with
  | some i => .check round i
  | none => .clear round .first

/-- The loops around `test_mutex_nested`: `task1_run` exits after its last round, and the
`int` of `task2_run` overflows after its last one. -/
def endRound (t : TestTask) (round : ℕ) (s : State) : Except Halt State :=
  match t with
  | .task1 =>
    .ok (if round + 1 < TEST_ITERATIONS then s.goto .task1 (.lock (round + 1))
    else { s with exited := some .pass })
  | .task2 =>
    if round < INT_MAX then .ok (s.goto .task2 (.lock (round + 1))) else .error .overflow

/-- The next step of `test_mutex_nested`, run by task `t`. -/
def testMutexNested (t : TestTask) (s : State) : Except Halt State :=
  match s.pc t with
  | .lock round => do
    let (err, mutex) ← posMutexLock false none s.mutex t POS_TIME_FOREVER
    let s' := { s with mutex := mutex }
    return verifyOrQuit (err == .ok) s' (s'.goto t (fill round .first))
  | .nest round i => do
    let (err, mutex) ← posMutexLock false none s.mutex t POS_TIME_FOREVER
    let s' := { s with mutex := mutex }
    return verifyOrQuit (err == .ok) s' (s'.goto t (.test round i))
  | .test round i =>
    -- the byte is read in one step and written in another one
    .ok (verifyOrQuit (s.buffer i != testValue t) s (s.goto t (.write round i)))
  | .write round i =>
    let s' := { s with buffer := Function.update s.buffer i (testValue t) }
    .ok (s'.goto t (match i.next? with
      | some i => fill round i
      | none => .check round .first))
  | .check round i =>
    .ok (verifyOrQuit (s.buffer i == testValue t) s
      (s.goto t (if recursive round then .unnest round i else afterCheck round i)))
  | .unnest round i =>
    let (err, mutex) := OsMutex.posMutexUnlock s.mutex t
    let s' := { s with mutex := mutex }
    .ok (verifyOrQuit (err == .ok) s' (s'.goto t (afterCheck round i)))
  | .clear round i =>
    -- `memset` is not atomic
    let s' := { s with buffer := Function.update s.buffer i 0 }
    .ok (s'.goto t (match i.next? with
      | some i => .clear round i
      | none => .unlock round))
  | .unlock round =>
    let (err, mutex) := OsMutex.posMutexUnlock s.mutex t
    let s' := { s with mutex := mutex }
    .ok (verifyOrQuit (err == .ok) s' (s'.goto t (.sleep round)))
  -- how long a task sleeps is left to the schedule
  | .sleep round => endRound t round s

/-- The program, once `init_app_tasks` has cleared the buffer and made the mutex. -/
def mutexTest : TestProgram State where
  init s := (∀ i, s.buffer i = 0) ∧
    posMutexInit TestTask .success .success .success = (.ok, some s.mutex) ∧
    (∀ t, s.pc t = .lock 0) ∧ s.exited = none
  run := testMutexNested
  exited := State.exited

/-! ## The buffer -/

/-- The first `k` bytes are `x`, and the others `y`. -/
def filled (x y : UInt8) (k : ℕ) : Index → UInt8 := fun i => if i < k then x else y

theorem filled_self (x y : UInt8) (i : Index) : filled x y i i = y := if_neg (Nat.lt_irrefl i)

theorem filled_all (x y : UInt8) : filled x y TEST_ITERATIONS = fun _ => x := by
  funext i
  exact if_pos i.isLt

theorem update_filled (x y : UInt8) (i : Index) :
    Function.update (filled x y i) i x = filled x y (i + 1) := by
  funext j
  by_cases hj : j = i
  · subst hj
    rw [Function.update_self]
    exact (if_pos (Nat.lt_succ_self j)).symm
  · rw [Function.update_of_ne hj]
    have hne : (j : ℕ) ≠ i := fun heq => hj (Fin.ext heq)
    unfold filled
    congr 1
    rw [eq_iff_iff]
    omega

theorem testValue_ne_zero (t : TestTask) : testValue t ≠ 0 := by
  cases t <;> decide

/-- How often a task has locked in the loops, `k` times in the rounds that lock again. -/
def nested (round k : ℕ) : ℕ := if recursive round then k else 0

/-- How often a task has locked, and what it has made of the buffer. -/
def guarding : Guarding TestTask Pc (Index → UInt8) where
  depth
    | .lock _ => 0
    | .nest round i => nested round i + 1
    | .test round i => nested round (i + 1) + 1
    | .write round i => nested round (i + 1) + 1
    | .check round i => nested round (TEST_ITERATIONS - i) + 1
    | .unnest round i => nested round (TEST_ITERATIONS - i) + 1
    | .clear _ _ => 1
    | .unlock _ => 1
    | .sleep _ => 0
  holds t p buffer :=
    match p with
    | .lock _ => True
    | .nest round i => recursive round = true ∧ buffer = filled (testValue t) 0 i
    | .test _ i => buffer = filled (testValue t) 0 i
    | .write _ i => buffer = filled (testValue t) 0 i
    | .check _ _ => buffer = filled (testValue t) 0 TEST_ITERATIONS
    | .unnest round _ =>
      recursive round = true ∧ buffer = filled (testValue t) 0 TEST_ITERATIONS
    | .clear _ i => buffer = filled 0 (testValue t) i
    | .unlock _ => buffer = filled 0 (testValue t) TEST_ITERATIONS
    | .sleep _ => True
  rest buffer := ∀ i, buffer i = 0

theorem nested_zero (round : ℕ) : nested round 0 = 0 := by
  simp [nested]

theorem nested_of_recursive {round : ℕ} (h : recursive round = true) (k : ℕ) :
    nested round k = k := if_pos h

theorem nested_mono (round : ℕ) {k k' : ℕ} (h : k ≤ k') : nested round k ≤ nested round k' := by
  unfold nested
  split
  · exact h
  · rfl

theorem nested_le (round k : ℕ) : nested round k ≤ k := by
  unfold nested
  split <;> omega

/-- No task locks nearly as often as the native mutex allows. -/
theorem depth_lt_mutexLimit (p : Pc) : guarding.depth p < mutexLimit := by
  have hle : guarding.depth p ≤ TEST_ITERATIONS + 1 := by
    cases p with
    | nest round i => exact Nat.succ_le_succ ((nested_le round i).trans i.isLt.le)
    | test round i => exact Nat.succ_le_succ ((nested_le round _).trans i.isLt)
    | write round i => exact Nat.succ_le_succ ((nested_le round _).trans i.isLt)
    | check round i => exact Nat.succ_le_succ ((nested_le round _).trans (Nat.sub_le _ _))
    | unnest round i => exact Nat.succ_le_succ ((nested_le round _).trans (Nat.sub_le _ _))
    | _ => simp [guarding]
  exact hle.trans_lt (by decide)

/-! ## Steps -/

namespace Pc

def round : Pc → ℕ
  | lock round => round
  | nest round _ => round
  | test round _ => round
  | write round _ => round
  | check round _ => round
  | unnest round _ => round
  | clear round _ => round
  | unlock round => round
  | sleep round => round

/-- The steps before a round: 43 in each one, and 20 more in each fifth one. -/
def roundStart (round : ℕ) : ℕ := 43 * round + 20 * ((round + 4) / 5)

/-- How many steps a task has taken that is here. -/
def steps : Pc → ℕ
  | lock round => roundStart round
  | nest round i => roundStart round + 1 + 2 * i + nested round i
  | test round i => roundStart round + 1 + 2 * i + nested round (i + 1)
  | write round i => roundStart round + 2 + 2 * i + nested round (i + 1)
  | check round i => roundStart round + 21 + nested round 10 + i + nested round i
  | unnest round i => roundStart round + 22 + nested round 10 + i + nested round i
  | clear round i => roundStart round + 31 + 2 * nested round 10 + i
  | unlock round => roundStart round + 41 + 2 * nested round 10
  | sleep round => roundStart round + 42 + 2 * nested round 10

theorem roundStart_succ (round : ℕ) :
    roundStart (round + 1) = roundStart round + 43 + 2 * nested round 10 := by
  unfold roundStart nested recursive
  by_cases h : round % 5 = 0
  · simp only [h, beq_self_eq_true, if_true]
    omega
  · simp only [beq_iff_eq, h, if_false]
    omega

theorem roundStart_mono {round round' : ℕ} (h : round ≤ round') :
    roundStart round ≤ roundStart round' := by
  unfold roundStart
  omega

/-- The steps of a round stay below the next one. -/
theorem steps_lt (p : Pc) : p.steps < roundStart (p.round + 1) := by
  have hbyte : ∀ i : Index, (i : ℕ) < 10 := fun i => i.isLt
  cases p with
  | nest round i =>
    have := hbyte i
    have := nested_mono round (hbyte i).le
    simp only [steps, Pc.round, roundStart_succ]
    omega
  | test round i =>
    have := hbyte i
    have : nested round (i + 1) ≤ nested round 10 := nested_mono round (hbyte i)
    simp only [steps, Pc.round, roundStart_succ]
    omega
  | write round i =>
    have := hbyte i
    have : nested round (i + 1) ≤ nested round 10 := nested_mono round (hbyte i)
    simp only [steps, Pc.round, roundStart_succ]
    omega
  | check round i =>
    have := hbyte i
    have := nested_mono round (hbyte i).le
    simp only [steps, Pc.round, roundStart_succ]
    omega
  | unnest round i =>
    have := hbyte i
    have := nested_mono round (hbyte i).le
    simp only [steps, Pc.round, roundStart_succ]
    omega
  | clear round i =>
    have := hbyte i
    simp only [steps, Pc.round, roundStart_succ]
    omega
  | lock round =>
    simp only [steps, Pc.round, roundStart_succ]
    omega
  | unlock round =>
    simp only [steps, Pc.round, roundStart_succ]
    omega
  | sleep round =>
    simp only [steps, Pc.round, roundStart_succ]
    omega

end Pc

theorem Index.next?_cases (i : Index) :
    (∃ j : Index, i.next? = some j ∧ (j : ℕ) = i + 1) ∨
      i.next? = none ∧ (i : ℕ) + 1 = TEST_ITERATIONS := by
  have hlt := i.isLt
  by_cases h : (i : ℕ) + 1 < TEST_ITERATIONS
  · exact .inl ⟨⟨i + 1, h⟩, dif_pos h, rfl⟩
  · exact .inr ⟨dif_neg h, by omega⟩

variable {s : State} {t : TestTask} {round : ℕ} {i : Index} {buffer : Index → UInt8}

/-! ### Where the loops begin -/

theorem depth_fill : guarding.depth (fill round i) = nested round i + 1 := by
  unfold fill
  by_cases h : recursive round = true
  · rw [if_pos h]
    rfl
  · rw [if_neg h]
    simp [guarding, nested, h]

theorem steps_fill : (fill round i).steps = Pc.roundStart round + 1 + 2 * i + nested round i := by
  unfold fill
  by_cases h : recursive round = true
  · rw [if_pos h]
    rfl
  · rw [if_neg h]
    simp [Pc.steps, nested, h]

theorem round_fill : (fill round i).round = round := by
  unfold fill
  split <;> rfl

theorem holds_fill (h : buffer = filled (testValue t) 0 i) :
    guarding.holds t (fill round i) buffer := by
  unfold fill
  by_cases hrec : recursive round = true
  · rw [if_pos hrec]
    exact ⟨hrec, h⟩
  · rw [if_neg hrec]
    exact h

theorem depth_afterCheck :
    guarding.depth (afterCheck round i) = nested round (TEST_ITERATIONS - (i + 1)) + 1 := by
  unfold afterCheck
  rcases i.next?_cases with ⟨j, hj, hval⟩ | ⟨hnone, hlast⟩
  · rw [hj, ← hval]
    rfl
  · rw [hnone, hlast, Nat.sub_self]
    simp [guarding, nested]

theorem steps_afterCheck : (afterCheck round i).steps
    = Pc.roundStart round + 21 + nested round 10 + (i + 1) + nested round (i + 1) := by
  unfold afterCheck
  rcases i.next?_cases with ⟨j, hj, hval⟩ | ⟨hnone, hlast⟩
  · rw [hj, ← hval]
    rfl
  · rw [hnone, hlast]
    simp only [Pc.steps, TEST_ITERATIONS, Index.first]
    omega

theorem round_afterCheck : (afterCheck round i).round = round := by
  unfold afterCheck
  split <;> rfl

theorem holds_afterCheck (h : buffer = filled (testValue t) 0 TEST_ITERATIONS) :
    guarding.holds t (afterCheck round i) buffer := by
  unfold afterCheck
  rcases i.next?_cases with ⟨j, hj, -⟩ | ⟨hnone, -⟩
  · rw [hj]
    exact h
  · rw [hnone, h, filled_all]
    rfl

/-! ### One step -/

/-- What a step of task `t` can come to. -/
inductive Turn (t : TestTask) (s : State) : Except Halt State → Prop where
  | waits {u : TestTask} (hout : guarding.depth (s.pc t) = 0) (hu : u ≠ t)
      (howner : s.mutex.owner = some u) : Turn t s (.error .blocked)
  | overflows {round : ℕ} (ht : t = .task2) (hpc : s.pc .task2 = .sleep round)
      (hround : INT_MAX ≤ round) : Turn t s (.error .overflow)
  | moves {mutex : RecLock TestTask} {buffer : Index → UInt8} {p : Pc}
      (hinv : guarding.Inv mutex buffer (Function.update s.pc t p))
      (hsteps : p.steps = (s.pc t).steps + 1)
      (hround : p.round = (s.pc t).round ∨
        guarding.depth (s.pc t) = 0 ∧ (t = .task1 → p.round < TEST_ITERATIONS)) :
      Turn t s (.ok { s with mutex := mutex, buffer := buffer, pc := Function.update s.pc t p })
  | ends {round : ℕ} (ht : t = .task1) (hpc : s.pc .task1 = .sleep round)
      (hround : TEST_ITERATIONS ≤ round + 1) : Turn t s (.ok { s with exited := some .pass })

/-- A lock without a deadline: it is granted, or another task is inside. -/
theorem lock_or_waits (h : guarding.Inv s.mutex s.buffer s.pc) (t : TestTask) :
    (∃ l, s.mutex.lock mutexLimit t = some l ∧
      posMutexLock false none s.mutex t POS_TIME_FOREVER = .ok (.ok, l)) ∨
    ∃ u, u ≠ t ∧ s.mutex.owner = some u ∧
      posMutexLock false none s.mutex t POS_TIME_FOREVER = .error .blocked := by
  rcases h.lock_or_inside (depth_lt_mutexLimit (s.pc t)) with ⟨l, hlock⟩ | ⟨u, hu, howner⟩
  · exact .inl ⟨l, hlock, posMutexLock_forever_of_lock hlock⟩
  · exact .inr ⟨u, hu, howner, posMutexLock_forever_of_owner howner hu⟩

theorem turn_lock (h : guarding.Inv s.mutex s.buffer s.pc) (hpc : s.pc t = .lock round) :
    Turn t s (testMutexNested t s) := by
  have hout : guarding.depth (s.pc t) = 0 := by
    rw [hpc]
    rfl
  rcases lock_or_waits h t with ⟨l, hlock, hrun⟩ | ⟨u, hu, howner, hrun⟩
  · have hstep : testMutexNested t s
        = .ok ({ s with mutex := l }.goto t (fill round .first)) := by
      simp [testMutexNested, hpc, hrun, verifyOrQuit, bind, Except.bind, pure, Except.pure]
    rw [hstep]
    refine .moves (h.lock hlock ?_ (fun _ hrest => holds_fill ?_) fun hin => ?_) ?_ (.inl ?_)
    · rw [hout, depth_fill]
      simp [nested, Index.first]
    · funext i
      exact hrest i
    · omega
    · rw [hpc, steps_fill]
      simp [nested, Index.first, Pc.steps]
    · rw [hpc, round_fill]
      rfl
  · have hstep : testMutexNested t s = .error .blocked := by
      simp [testMutexNested, hpc, hrun, bind, Except.bind]
    rw [hstep]
    exact .waits hout hu howner

/-- A task that is inside is not made to wait by `pos_mutex_lock`. -/
theorem turn_nest (h : guarding.Inv s.mutex s.buffer s.pc) (hpc : s.pc t = .nest round i) :
    Turn t s (testMutexNested t s) := by
  obtain ⟨hin, hrec, hbuffer⟩ := h.holds_of_pc hpc (Nat.succ_pos _)
  rcases lock_or_waits h t with ⟨l, hlock, hrun⟩ | ⟨u, hu, howner, -⟩
  · have hstep : testMutexNested t s = .ok ({ s with mutex := l }.goto t (.test round i)) := by
      simp [testMutexNested, hpc, hrun, verifyOrQuit, bind, Except.bind, pure, Except.pure]
    rw [hstep]
    refine .moves (h.lock hlock ?_ (fun hout => ?_) fun _ _ => hbuffer) ?_ (.inl ?_)
    · rw [hpc]
      simp [guarding, nested, hrec]
    · omega
    · rw [hpc]
      simp only [Pc.steps, nested_of_recursive hrec]
      omega
    · rw [hpc]
      rfl
  · exact absurd (h.eq_of_inside (h.inside_of_owner howner) hin) hu

/-- The byte is still clear. -/
theorem turn_test (h : guarding.Inv s.mutex s.buffer s.pc) (hpc : s.pc t = .test round i) :
    Turn t s (testMutexNested t s) := by
  obtain ⟨hin, (hbuffer : s.buffer = filled (testValue t) 0 i)⟩ :=
    h.holds_of_pc hpc (Nat.succ_pos _)
  have hclear : (s.buffer i != testValue t) = true := by
    rw [hbuffer, filled_self, bne_iff_ne]
    exact (testValue_ne_zero t).symm
  have hstep : testMutexNested t s = .ok (s.goto t (.write round i)) := by
    simp [testMutexNested, hpc, hclear, verifyOrQuit]
  rw [hstep]
  refine .moves (h.work hin ?_ fun _ => hbuffer) ?_ (.inl ?_)
  · rw [hpc]
    rfl
  · rw [hpc]
    simp only [Pc.steps]
    omega
  · rw [hpc]
    rfl

theorem turn_write (h : guarding.Inv s.mutex s.buffer s.pc) (hpc : s.pc t = .write round i) :
    Turn t s (testMutexNested t s) := by
  obtain ⟨hin, (hbuffer : s.buffer = filled (testValue t) 0 i)⟩ :=
    h.holds_of_pc hpc (Nat.succ_pos _)
  have hafter : Function.update s.buffer i (testValue t) = filled (testValue t) 0 (i + 1) := by
    rw [hbuffer, update_filled]
  rcases i.next?_cases with ⟨j, hj, hval⟩ | ⟨hnone, hlast⟩
  · have hstep : testMutexNested t s
        = .ok ({ s with buffer := filled (testValue t) 0 (i + 1) }.goto t (fill round j)) := by
      simp [testMutexNested, hpc, hj, hafter]
    rw [hstep]
    refine .moves (h.work hin ?_ fun _ => holds_fill ?_) ?_ (.inl ?_)
    · rw [hpc, depth_fill, hval]
      rfl
    · rw [hval]
    · rw [hpc, steps_fill, hval]
      simp only [Pc.steps]
      omega
    · rw [hpc, round_fill]
      rfl
  · have hstep : testMutexNested t s
        = .ok ({ s with buffer := filled (testValue t) 0 (i + 1) }.goto t
          (.check round .first)) := by
      simp [testMutexNested, hpc, hnone, hafter]
    rw [hstep, hlast]
    refine .moves (h.work hin ?_ fun _ => rfl) ?_ (.inl ?_)
    · rw [hpc]
      simp only [guarding, hlast]
      rfl
    · rw [hpc]
      simp only [Pc.steps, Index.first, nested_zero, hlast]
      simp only [TEST_ITERATIONS] at hlast ⊢
      omega
    · rw [hpc]
      rfl

/-- The byte is what the task has written. -/
theorem turn_check (h : guarding.Inv s.mutex s.buffer s.pc) (hpc : s.pc t = .check round i) :
    Turn t s (testMutexNested t s) := by
  obtain ⟨hin, (hbuffer : s.buffer = filled (testValue t) 0 TEST_ITERATIONS)⟩ :=
    h.holds_of_pc hpc (Nat.succ_pos _)
  have hvalue : (s.buffer i == testValue t) = true := by
    rw [hbuffer, filled_all, beq_self_eq_true]
  have hstep : testMutexNested t s = .ok (s.goto t
      (if recursive round then .unnest round i else afterCheck round i)) := by
    simp [testMutexNested, hpc, hvalue, verifyOrQuit]
  rw [hstep]
  by_cases hrec : recursive round = true
  · rw [if_pos hrec]
    refine .moves (h.work hin ?_ fun _ => ⟨hrec, hbuffer⟩) ?_ (.inl ?_)
    · rw [hpc]
      rfl
    · rw [hpc]
      simp only [Pc.steps]
      omega
    · rw [hpc]
      rfl
  · rw [if_neg hrec]
    refine .moves (h.work hin ?_ fun _ => holds_afterCheck hbuffer) ?_ (.inl ?_)
    · rw [hpc, depth_afterCheck]
      simp [guarding, nested, hrec]
    · rw [hpc, steps_afterCheck]
      simp only [Pc.steps, nested, if_neg hrec]
      omega
    · rw [hpc, round_afterCheck]
      rfl

/-- A task that is inside can unlock. -/
theorem posMutexUnlock_of_inside (h : guarding.Inv s.mutex s.buffer s.pc)
    (hin : 0 < guarding.depth (s.pc t)) :
    s.mutex.unlock t = some s.mutex.release ∧
      OsMutex.posMutexUnlock s.mutex t = (.ok, s.mutex.release) :=
  ⟨h.unlock_of_inside hin, OsMutex.posMutexUnlock_eq_ok.mpr (h.unlock_of_inside hin)⟩

theorem turn_unnest (h : guarding.Inv s.mutex s.buffer s.pc) (hpc : s.pc t = .unnest round i) :
    Turn t s (testMutexNested t s) := by
  obtain ⟨hin, hrec, hbuffer⟩ := h.holds_of_pc hpc (Nat.succ_pos _)
  obtain ⟨hunlock, hrun⟩ := posMutexUnlock_of_inside h hin
  have hstep : testMutexNested t s
      = .ok ({ s with mutex := s.mutex.release }.goto t (afterCheck round i)) := by
    simp [testMutexNested, hpc, hrun, verifyOrQuit]
  have hlt := i.isLt
  rw [hstep]
  refine .moves (h.unlock hunlock ?_ (fun hout => ?_) fun _ _ => holds_afterCheck hbuffer) ?_
    (.inl ?_)
  · rw [hpc, depth_afterCheck]
    simp only [guarding, nested_of_recursive hrec]
    omega
  · rw [depth_afterCheck] at hout
    omega
  · rw [hpc, steps_afterCheck]
    simp only [Pc.steps, nested_of_recursive hrec]
    omega
  · rw [hpc, round_afterCheck]
    rfl

theorem turn_clear (h : guarding.Inv s.mutex s.buffer s.pc) (hpc : s.pc t = .clear round i) :
    Turn t s (testMutexNested t s) := by
  obtain ⟨hin, (hbuffer : s.buffer = filled 0 (testValue t) i)⟩ :=
    h.holds_of_pc hpc (Nat.succ_pos _)
  have hafter : Function.update s.buffer i 0 = filled 0 (testValue t) (i + 1) := by
    rw [hbuffer, update_filled]
  rcases i.next?_cases with ⟨j, hj, hval⟩ | ⟨hnone, hlast⟩
  · have hstep : testMutexNested t s
        = .ok ({ s with buffer := filled 0 (testValue t) (i + 1) }.goto t (.clear round j)) := by
      simp [testMutexNested, hpc, hj, hafter]
    rw [hstep, ← hval]
    refine .moves (h.work hin ?_ fun _ => rfl) ?_ (.inl ?_)
    · rw [hpc]
      rfl
    · rw [hpc]
      simp only [Pc.steps]
      omega
    · rw [hpc]
      rfl
  · have hstep : testMutexNested t s
        = .ok ({ s with buffer := filled 0 (testValue t) (i + 1) }.goto t (.unlock round)) := by
      simp [testMutexNested, hpc, hnone, hafter]
    rw [hstep, hlast]
    refine .moves (h.work hin ?_ fun _ => rfl) ?_ (.inl ?_)
    · rw [hpc]
      rfl
    · rw [hpc]
      simp only [Pc.steps, TEST_ITERATIONS] at hlast ⊢
      omega
    · rw [hpc]
      rfl

theorem turn_unlock (h : guarding.Inv s.mutex s.buffer s.pc) (hpc : s.pc t = .unlock round) :
    Turn t s (testMutexNested t s) := by
  obtain ⟨hin, (hbuffer : s.buffer = filled 0 (testValue t) TEST_ITERATIONS)⟩ :=
    h.holds_of_pc hpc (Nat.succ_pos _)
  obtain ⟨hunlock, hrun⟩ := posMutexUnlock_of_inside h hin
  have hstep : testMutexNested t s
      = .ok ({ s with mutex := s.mutex.release }.goto t (.sleep round)) := by
    simp [testMutexNested, hpc, hrun, verifyOrQuit]
  rw [hstep]
  refine .moves (h.unlock hunlock ?_ (fun _ _ i => ?_) fun _ _ => trivial) ?_ (.inl ?_)
  · rw [hpc]
    rfl
  · rw [hbuffer, filled_all]
  · rw [hpc]
    simp only [Pc.steps]
    omega
  · rw [hpc]
    rfl

theorem turn_sleep (h : guarding.Inv s.mutex s.buffer s.pc) (hpc : s.pc t = .sleep round) :
    Turn t s (testMutexNested t s) := by
  have hout : guarding.depth (s.pc t) = 0 := by
    rw [hpc]
    rfl
  have hgoto : (Pc.lock (round + 1)).steps = (s.pc t).steps + 1 := by
    rw [hpc]
    simp only [Pc.steps, Pc.roundStart_succ]
    omega
  have hstep : testMutexNested t s = endRound t round s := by
    simp [testMutexNested, hpc]
  rw [hstep]
  cases t with
  | task1 =>
    by_cases hmore : round + 1 < TEST_ITERATIONS
    · rw [endRound, if_pos hmore]
      exact .moves (h.outside hout rfl) hgoto (.inr ⟨hout, fun _ => hmore⟩)
    · rw [endRound, if_neg hmore]
      exact .ends rfl hpc (Nat.le_of_not_lt hmore)
  | task2 =>
    by_cases hmore : round < INT_MAX
    · rw [endRound, if_pos hmore]
      exact .moves (h.outside hout rfl) hgoto (.inr ⟨hout, fun heq => nomatch heq⟩)
    · rw [endRound, if_neg hmore]
      exact .overflows rfl hpc (Nat.le_of_not_lt hmore)

/-- **One step of a task**, wherever it is. -/
theorem turn (h : guarding.Inv s.mutex s.buffer s.pc) (t : TestTask) :
    Turn t s (testMutexNested t s) := by
  cases hpc : s.pc t with
  | lock round => exact turn_lock h hpc
  | nest round i => exact turn_nest h hpc
  | test round i => exact turn_test h hpc
  | write round i => exact turn_write h hpc
  | check round i => exact turn_check h hpc
  | unnest round i => exact turn_unnest h hpc
  | clear round i => exact turn_clear h hpc
  | unlock round => exact turn_unlock h hpc
  | sleep round => exact turn_sleep h hpc

/-! ## Whole runs -/

/-- What holds in every schedule. -/
structure Inv (s : State) : Prop where
  guard : guarding.Inv s.mutex s.buffer s.pc
  round : (s.pc .task1).round < TEST_ITERATIONS
  exited : s.exited = none ∨ s.exited = some .pass

theorem inv_init (h : mutexTest.init s) : Inv s where
  guard := by
    obtain ⟨hbuffer, hmutex, hpc, -⟩ := h
    rw [(posMutexInit_eq_ok.mp hmutex).2]
    refine .of_free (fun t => ?_) hbuffer
    rw [hpc]
    rfl
  round := by
    rw [h.2.2.1]
    decide
  exited := .inl h.2.2.2

/-- The steps of the first task while it has not ended. -/
theorem Inv.steps_lt (h : Inv s) : (s.pc .task1).steps < 470 :=
  (Pc.steps_lt _).trans_le (Pc.roundStart_mono h.round)

/-- What a step counts for, and that it keeps the invariant. -/
theorem Inv.step (h : Inv s) (hstep : mutexTest.system.step s t s') :
    Inv s' ∧ (s.exited = none ∧ s'.exited = none ∧
        (∀ u, (s'.pc u).steps = (s.pc u).steps + if t = u then 1 else 0) ∨
      s'.exited = some .pass ∧ t = .task1 ∧ (s.pc .task1).steps + 1 = 470 ∧ s'.pc = s.pc) := by
  obtain ⟨hrunning, hrun⟩ := hstep
  have hturn : Turn t s (.ok s') := hrun ▸ turn h.guard t
  cases hturn with
  | @moves mutex buffer p hinv hsteps hround =>
    have hround' : (Function.update s.pc t p .task1).round < TEST_ITERATIONS := by
      by_cases ht : t = .task1
      · subst ht
        rw [Function.update_self]
        rcases hround with hsame | ⟨-, hlt⟩
        · rw [hsame]
          exact h.round
        · exact hlt rfl
      · rw [Function.update_of_ne (Ne.symm ht)]
        exact h.round
    refine ⟨⟨hinv, hround', h.exited⟩, .inl ⟨hrunning, hrunning, fun u => ?_⟩⟩
    show (Function.update s.pc t p u).steps = _
    by_cases hu : t = u
    · subst hu
      rw [Function.update_self, hsteps, if_pos rfl]
    · rw [Function.update_of_ne (Ne.symm hu), if_neg hu]
      rfl
  | @ends round ht hpc hround =>
    -- the first task is in its last round
    have hlt := h.round
    rw [hpc] at hlt
    obtain rfl : round = 9 := by
      simp only [Pc.round, TEST_ITERATIONS] at hlt hround
      omega
    refine ⟨⟨h.guard, h.round, .inr rfl⟩, .inr ⟨rfl, ht, ?_, rfl⟩⟩
    rw [hpc]
    rfl

/-- How far the tasks are from the end of the program and of a round. -/
def left (s : State) : ℕ :=
  470 - (s.pc .task1).steps
    + (Pc.roundStart ((s.pc .task2).round + 1) - (s.pc .task2).steps)

/-- **The first task gets on, or the second one is inside and does.** -/
theorem Inv.progress (h : Inv s) (hrunning : s.exited = none) :
    ∃ s', (∃ t, mutexTest.system.step s t s') ∧
      (s'.exited = some .pass ∨ Inv s' ∧ left s' < left s) := by
  have hturn := turn h.guard .task1
  generalize hrun : testMutexNested .task1 s = result at hturn
  cases hturn with
  | @moves mutex buffer p hinv hsteps hround =>
    have hstep : mutexTest.system.step s .task1 _ := ⟨hrunning, hrun⟩
    obtain ⟨hinv', -⟩ := h.step hstep
    have hlt := hinv'.steps_lt
    have hother : TestTask.task2 ≠ .task1 := fun heq => nomatch heq
    refine ⟨_, ⟨.task1, hstep⟩, .inr ⟨hinv', ?_⟩⟩
    simp only [left, Function.update_self, Function.update_of_ne hother] at hlt ⊢
    omega
  | ends ht hpc hround => exact ⟨_, ⟨.task1, hrunning, hrun⟩, .inl rfl⟩
  | overflows ht hpc hround => cases ht
  | @waits u hout hu howner =>
    -- the second task owns the mutex, and its round is not over
    obtain rfl : u = .task2 := TestTask.eq_other hu
    have hin := h.guard.inside_of_owner howner
    have hturn := turn h.guard .task2
    generalize hrun' : testMutexNested .task2 s = result at hturn
    cases hturn with
    | @moves mutex buffer p hinv hsteps hround =>
      have hstep : mutexTest.system.step s .task2 _ := ⟨hrunning, hrun'⟩
      obtain ⟨hinv', -⟩ := h.step hstep
      refine ⟨_, ⟨.task2, hstep⟩, .inr ⟨hinv', ?_⟩⟩
      have hsame : p.round = (s.pc .task2).round := hround.resolve_right fun hout' => by omega
      have hlt := p.steps_lt
      have hother : TestTask.task1 ≠ .task2 := fun heq => nomatch heq
      simp only [left, Function.update_self, Function.update_of_ne hother]
      rw [hsame] at hlt ⊢
      omega
    -- an owner does not wait
    | waits hout' _ _ => omega
    | overflows _ hpc _ =>
      rw [hpc] at hin
      cases hin
    | ends ht _ _ => cases ht

/-- What a schedule has come to. -/
structure Counted (schedule : List TestTask) (s : State) : Prop where
  inv : Inv s
  task2 : schedule.count .task2 = (s.pc .task2).steps
  task1 : s.exited = none ∧ schedule.count .task1 = (s.pc .task1).steps ∨
    s.exited = some .pass ∧ schedule.count .task1 = 470

theorem counted_of_run {schedule : List TestTask}
    (hrun : mutexTest.system.Run (fun _ _ => True) schedule s) : Counted schedule s := by
  refine hrun.invariant (I := Counted) (fun s hinit => ?_) fun schedule s t s' h _ hstep => ?_
  · have ⟨_, _, hpc, hrunning⟩ := hinit
    refine ⟨inv_init hinit, ?_, .inl ⟨hrunning, ?_⟩⟩
    · rw [hpc]
      rfl
    · rw [hpc]
      rfl
  · obtain ⟨hinv', hcase⟩ := h.inv.step hstep
    rcases hcase with ⟨hrunning, hrunning', hsteps⟩ | ⟨hpass, rfl, hlast, hpc⟩
    · have htask1 : schedule.count .task1 = (s.pc .task1).steps := by
        rcases h.task1 with ⟨-, hcount⟩ | ⟨hpass, -⟩
        · exact hcount
        · cases hrunning.symm.trans hpass
      refine ⟨hinv', ?_, .inl ⟨hrunning', ?_⟩⟩
      · rw [List.count_append, List.count_singleton, hsteps, h.task2]
        simp
      · rw [List.count_append, List.count_singleton, hsteps, htask1]
        simp
    · have htask1 : schedule.count .task1 = (s.pc .task1).steps := by
        rcases h.task1 with ⟨-, hcount⟩ | ⟨hpass', -⟩
        · exact hcount
        · cases hstep.1.symm.trans hpass'
      refine ⟨hinv', ?_, .inr ⟨hpass, ?_⟩⟩
      · rw [List.count_append, List.count_singleton, hpc, h.task2]
        rfl
      · rw [List.count_append, List.count_singleton, htask1, ← hlast]
        rfl

/-- A byte that the owner has not written is clear. -/
theorem value_of_holds {p : Pc} (hin : 0 < guarding.depth p) (h : guarding.holds t p buffer)
    (i : Index) : buffer i = 0 ∨ buffer i = testValue t := by
  have hfilled : ∀ x y k, filled x y k i = x ∨ filled x y k i = y := by
    intro x y k
    unfold filled
    split
    · exact .inl rfl
    · exact .inr rfl
  cases p with
  | lock round => cases hin
  | nest round j =>
    rw [h.2]
    exact (hfilled _ _ _).symm
  | test round j =>
    rw [show buffer = _ from h]
    exact (hfilled _ _ _).symm
  | write round j =>
    rw [show buffer = _ from h]
    exact (hfilled _ _ _).symm
  | check round j =>
    rw [show buffer = _ from h]
    exact (hfilled _ _ _).symm
  | unnest round j =>
    rw [h.2]
    exact (hfilled _ _ _).symm
  | clear round j =>
    rw [show buffer = _ from h]
    exact hfilled _ _ _
  | unlock round =>
    rw [show buffer = _ from h]
    exact hfilled _ _ _
  | sleep round => cases hin

/-- A task's value stands in the buffer only while the task owns the mutex. -/
theorem Inv.owner_of_value (h : Inv s) (hvalue : s.buffer i = testValue t) :
    s.mutex.owner = some t := by
  cases howner : s.mutex.owner with
  | none =>
    -- where nobody is inside, the buffer is clear
    have hfree : s.mutex = .free := by
      cases hmutex : s.mutex with
      | free => rfl
      | held u n => simp [hmutex] at howner
    exact absurd (hvalue.symm.trans (h.guard.rest hfree i)) (testValue_ne_zero t)
  | some u =>
    have hin := h.guard.inside_of_owner howner
    rcases value_of_holds hin (h.guard.holds u hin) i with hzero | hu
    · exact absurd (hvalue.symm.trans hzero) (testValue_ne_zero t)
    · have hsame : testValue u = testValue t := hu.symm.trans hvalue
      cases t <;> cases u <;> first | rfl | exact absurd hsame (by decide)

/-- **The mutex test passes** once its first task has taken 470 steps, in whatever order the
tasks run; the second one may take `43 * 2 ^ 31` before its counter of rounds overflows. In no
state of a run is a byte of the buffer what a task writes that does not own the mutex. -/
theorem mutexTest_passes :
    (∃ s, mutexTest.init s) ∧ mutexTest.PassesAfter 470 (43 * 2 ^ 31) ∧
      ∀ s, mutexTest.system.Reachable s →
        ∀ t i, s.buffer i = testValue t → s.mutex.owner = some t := by
  refine ⟨⟨⟨.free, fun _ => 0, fun _ => .lock 0, none⟩, fun _ => rfl, rfl, fun _ => rfl, rfl⟩,
    fun schedule s hrun => ?_, fun s hreach t i hvalue => ?_⟩
  · have h := counted_of_run hrun
    refine ⟨?_, ?_, ?_, fun hlimit t halt hrunning herror => ?_⟩
    · show s.exited ≠ some .fail
      rcases h.inv.exited with hnone | hpass
      · simp [hnone]
      · simp [hpass]
    · refine exists_path_of_closer left (fun s hinv hgoal => ?_) h.inv
      have hrunning : s.exited = none := hinv.exited.resolve_right hgoal
      obtain ⟨s', hstep, hcloser⟩ := hinv.progress hrunning
      exact ⟨s', hstep, hcloser⟩
    · show s.exited = some .pass ↔ _
      have hlt := h.inv.steps_lt
      rcases h.task1 with ⟨hnone, hcount⟩ | ⟨hpass, hcount⟩
      · simp only [hnone, hcount, reduceCtorEq, false_iff]
        omega
      · simp [hpass, hcount]
    · have hturn : Turn t s (.error halt) := by
        rw [← herror]
        exact turn h.inv.guard t
      cases hturn with
      | waits _ _ _ => rfl
      | @overflows round ht hpc hround =>
        -- a round takes 43 steps at least
        have hsteps := h.task2
        rw [hpc] at hsteps
        simp only [Pc.steps, Pc.roundStart, INT_MAX] at hsteps hround
        omega
  · obtain ⟨schedule, hrun⟩ := hreach
    exact (counted_of_run hrun).inv.owner_of_value hvalue

end Poski.Programs.MutexTest
