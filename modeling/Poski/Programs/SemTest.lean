import Poski.Posix.Semaphore
import Poski.Programs.TestProgram

/-!
# The Semaphore Test

`test_os_sem.c`, run over the semaphores of the POSIX port. In each round the first task gives
`task1_sem` and takes `task2_sem`, and the second one takes the former and gives the latter.

- `At` : where the program is
- `semTest_passes` : it passes in every schedule
-/

namespace Poski.Programs.SemTest

open Posix

def TEST_ITERATIONS : ℕ := 10

/-- Where `task1_run` is, in iteration `i`. -/
inductive Pc1 where
  | give (i : ℕ)
  | take (i : ℕ)
  deriving DecidableEq, Repr

/-- Where `task2_run` is. -/
inductive Pc2 where
  | take
  | give
  deriving DecidableEq, Repr

structure State where
  task1Sem : SemT
  task2Sem : SemT
  pc1 : Pc1
  pc2 : Pc2
  exited : Option Exit

/-- `SuccessOrQuit`, before the task goes on to `s'`. -/
def successOrQuit (err : PosError) (s s' : State) : State :=
  if err = .ok then s' else { s with exited := some .fail }

/-- The next call of `task1_run`; the loop ends with `exit(PASS)`. -/
def task1Run (s : State) : Except Halt State :=
  match s.pc1 with
  | .give i =>
    let (err, sem) := posSemGive s.task1Sem
    .ok (successOrQuit err s { s with task1Sem := sem, pc1 := .take i })
  | .take i => do
    let (err, sem) ← posSemTake false none s.task2Sem POS_TIME_FOREVER
    let s' := { s with task2Sem := sem }
    return successOrQuit err s
      (if i + 1 < TEST_ITERATIONS then { s' with pc1 := .give (i + 1) }
      else { s' with exited := some .pass })

/-- The next call of `task2_run`. -/
def task2Run (s : State) : Except Halt State :=
  match s.pc2 with
  | .take => do
    let (err, sem) ← posSemTake false none s.task1Sem POS_TIME_FOREVER
    return successOrQuit err s { s with task1Sem := sem, pc2 := .give }
  | .give =>
    let (err, sem) := posSemGive s.task2Sem
    .ok (successOrQuit err s { s with task2Sem := sem, pc2 := .take })

/-- The program, once `task1_init` and `task2_init` have made the semaphores. -/
def semTest : TestProgram State where
  init s := posSemInit 0 = (.ok, some s.task1Sem) ∧ posSemInit 0 = (.ok, some s.task2Sem) ∧
    s.pc1 = .give 0 ∧ s.pc2 = .take ∧ s.exited = none
  run
    | .task1 => task1Run
    | .task2 => task2Run
  exited := State.exited

/-! ## Where the program is -/

/-- How many tokens the semaphores have, and where the tasks are. -/
structure Stands (s : State) (tokens1 tokens2 : ℕ) (pc1 : Pc1) (pc2 : Pc2) : Prop where
  task1Sem : s.task1Sem.count = tokens1
  task2Sem : s.task2Sem.count = tokens2
  pc1 : s.pc1 = pc1
  pc2 : s.pc2 = pc2
  running : s.exited = none

/-- The token that is handed to and fro. -/
def At : Round TEST_ITERATIONS → State → Prop
  | .call i, s => Stands s 0 0 (.give i) .take
  | .called i, s => Stands s 1 0 (.take i) .take
  | .answer i, s => Stands s 0 0 (.take i) .give
  | .answered i, s => Stands s 0 1 (.take i) .take
  | .finished, s => s.exited = some .pass

variable {s : State} {tokens1 tokens2 : ℕ} {pc1 : Pc1} {pc2 : Pc2}

/-- A take that finds no token waits. -/
theorem Stands.task1_waits {i : ℕ} (h : Stands s tokens1 0 (.take i) pc2) :
    task1Run s = .error .blocked := by
  simp [task1Run, h.pc1, posSemTake_forever_zero h.task2Sem, bind, Except.bind]

theorem Stands.task2_waits (h : Stands s 0 tokens2 pc1 .take) :
    task2Run s = .error .blocked := by
  simp [task2Run, h.pc2, posSemTake_forever_zero h.task1Sem, bind, Except.bind]

theorem running_of_next {x x' : Round TEST_ITERATIONS} (hat : At x s) (hnext : x.next = some x') :
    s.exited = none := by
  cases x with
  | finished => cases hnext
  | _ => exact hat.running

/-- **The tasks take turns.** -/
theorem semTest_turns : semTest.TakesTurns At (.start 0) Round.next where
  init s h := by
    obtain ⟨h1, h2, hpc1, hpc2, hrunning⟩ := h
    obtain ⟨sem, hinit, hcount⟩ := posSemInit_eq 0
    -- both semaphores are made without a token
    cases hinit.symm.trans h1
    have hsame : s.task1Sem = s.task2Sem := by
      rw [h1, Prod.mk.injEq, Option.some_inj] at h2
      exact h2.2
    exact ⟨hcount, hsame ▸ hcount, hpc1, hpc2, hrunning⟩
  turn x x' s hat hnext := by
    refine ⟨running_of_next hat hnext, ?_⟩
    cases x with
    | call i =>
      cases hnext
      have hlt : s.task1Sem.count < SEM_VALUE_MAX := by
        rw [hat.task1Sem]
        decide
      refine ⟨.task1, { s with task1Sem := ⟨s.task1Sem.count + 1, hlt⟩, pc1 := .take i }, ?_, ?_,
        hat.task2_waits⟩
      · simp [semTest, task1Run, hat.pc1, posSemGive_of_lt hlt, successOrQuit]
      · exact ⟨by simp [hat.task1Sem], hat.task2Sem, rfl, hat.pc2, hat.running⟩
    | called i =>
      cases hnext
      obtain ⟨sem, htake, hcount⟩ :=
        posSemTake_forever_pos false none (by rw [hat.task1Sem]; exact Nat.one_pos)
      have hzero : sem.count = 0 := Nat.succ.inj (hcount.symm.trans hat.task1Sem)
      refine ⟨.task2, { s with task1Sem := sem, pc2 := .give }, ?_, ?_, hat.task1_waits⟩
      · simp [semTest, task2Run, hat.pc2, htake, successOrQuit, bind, Except.bind, pure,
          Except.pure]
      · exact ⟨hzero, hat.task2Sem, hat.pc1, rfl, hat.running⟩
    | answer i =>
      cases hnext
      have hlt : s.task2Sem.count < SEM_VALUE_MAX := by
        rw [hat.task2Sem]
        decide
      refine ⟨.task2, { s with task2Sem := ⟨s.task2Sem.count + 1, hlt⟩, pc2 := .take }, ?_, ?_,
        hat.task1_waits⟩
      · simp [semTest, task2Run, hat.pc2, posSemGive_of_lt hlt, successOrQuit]
      · exact ⟨hat.task1Sem, by simp [hat.task2Sem], hat.pc1, rfl, hat.running⟩
    | answered i =>
      cases hnext
      obtain ⟨sem, htake, hcount⟩ :=
        posSemTake_forever_pos false none (by rw [hat.task2Sem]; exact Nat.one_pos)
      have hzero : sem.count = 0 := Nat.succ.inj (hcount.symm.trans hat.task2Sem)
      -- after the last round the first task leaves with `exit(PASS)`
      unfold Round.start
      by_cases hmore : (i : ℕ) + 1 < TEST_ITERATIONS
      · rw [dif_pos hmore]
        refine ⟨.task1, { s with task2Sem := sem, pc1 := .give (i + 1) }, ?_, ?_,
          hat.task2_waits⟩
        · simp [semTest, task1Run, hat.pc1, htake, successOrQuit, hmore, bind, Except.bind, pure,
            Except.pure]
        · exact ⟨hat.task1Sem, hzero, rfl, hat.pc2, hat.running⟩
      · rw [dif_neg hmore]
        refine ⟨.task1, { s with task2Sem := sem, exited := some .pass }, ?_, rfl,
          hat.task2_waits⟩
        simp [semTest, task1Run, hat.pc1, htake, successOrQuit, hmore, bind, Except.bind, pure,
          Except.pure]
    | finished => cases hnext
  done x s hat hnext := by
    cases x with
    | finished => exact hat
    | _ => cases hnext

/-- **The semaphore test passes** in every schedule, after 40 calls of the port at most. -/
theorem semTest_passes : (∃ s, semTest.init s) ∧ semTest.Passes 40 := by
  refine ⟨⟨⟨⟨0, by decide⟩, ⟨0, by decide⟩, .give 0, .take, none⟩, rfl, rfl, rfl, rfl, rfl⟩, ?_⟩
  exact TestProgram.passes_of_turns semTest_turns Round.left fun _ _ => Round.left_next

end Poski.Programs.SemTest
