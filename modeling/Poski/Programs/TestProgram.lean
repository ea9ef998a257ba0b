import Poski.Lib.TransitionSystem
import Poski.Osal.Types

/-!
# Test Programs of Two Tasks

The tests of the port start two tasks and leave them to the scheduler. A check that fails
ends the program with `exit(FAIL)`; the first task ends it with `exit(PASS)` when it is
done. Between two calls of the port a task is on its own, so a call, together with the checks
of its results, is one step.

- `TestProgram.Passes` : the program passes in every schedule
- `TestProgram.PassesAfter` : it passes whenever its first task is not kept from running
- `Round` : the tasks hand something to and fro
- `TestProgram.passes_of_turns` : programs whose tasks take turns
-/

namespace Poski.Programs

open Lib

inductive TestTask where
  | task1
  | task2
  deriving DecidableEq, Repr

def TestTask.other : TestTask → TestTask
  | task1 => task2
  | task2 => task1

theorem TestTask.eq_other {t t' : TestTask} (h : t' ≠ t) : t' = t.other := by
  cases t <;> cases t' <;> first | rfl | exact absurd rfl h

/-- How the program has ended. -/
inductive Exit where
  | pass
  | fail
  deriving DecidableEq, Repr

/-- A program in state `σ`, after its `main` has started the tasks. A task that has to wait is
`blocked`. -/
structure TestProgram (σ : Type) where
  init : σ → Prop
  run : TestTask → σ → Except Halt σ
  exited : σ → Option Exit

namespace TestProgram

variable {σ : Type}

/-- The schedules: as long as the program has not ended, some task that does not have to wait
takes a step. -/
def system (p : TestProgram σ) : TransitionSystem σ TestTask where
  init := p.init
  step s t s' := p.exited s = none ∧ p.run t s = .ok s'

/-- In every schedule no check fails, a task that cannot go on has to wait and has not crashed,
the program comes to its end after at most `bound` steps, and that end is `exit(PASS)`. -/
def Passes (p : TestProgram σ) (bound : ℕ) : Prop :=
  ∀ schedule s, p.system.Run (fun _ _ => True) schedule s →
    p.exited s ≠ some .fail ∧
    (∀ t halt, p.exited s = none → p.run t s = .error halt → halt = .blocked) ∧
    schedule.length ≤ bound ∧
    ((∀ t s', ¬p.system.step s t s') → p.exited s = some .pass)

/-- In every schedule no check fails; the program can always be brought to `exit(PASS)`, and has
come to it exactly when its first task has taken `steps` steps; and as long as its second task
has not taken `limit` steps, a task that cannot go on has to wait and has not crashed. -/
def PassesAfter (p : TestProgram σ) (steps limit : ℕ) : Prop :=
  ∀ schedule s, p.system.Run (fun _ _ => True) schedule s →
    p.exited s ≠ some .fail ∧
    (∃ s', p.system.LeadsTo s s' ∧ p.exited s' = some .pass) ∧
    (p.exited s = some .pass ↔ schedule.count .task1 = steps) ∧
    (schedule.count .task2 < limit →
      ∀ t halt, p.exited s = none → p.run t s = .error halt → halt = .blocked)

/-- In each place but the last one it is one task's turn, and the other one waits. -/
structure TakesTurns {π : Type} (p : TestProgram σ) (At : π → σ → Prop) (first : π)
    (next : π → Option π) : Prop where
  init : ∀ s, p.init s → At first s
  turn : ∀ x x' s, At x s → next x = some x' → p.exited s = none ∧
    ∃ t s', p.run t s = .ok s' ∧ At x' s' ∧ p.run t.other s = .error .blocked
  done : ∀ x s, At x s → next x = none → p.exited s = some .pass

/-- Taking turns leaves no choice. -/
theorem TakesTurns.followsPath {π : Type} {p : TestProgram σ} {At : π → σ → Prop} {first : π}
    {next : π → Option π} (h : p.TakesTurns At first next) :
    FollowsPath p.system At first next where
  init := h.init
  step x s t s' hat hstep := by
    obtain ⟨hrunning, hrun⟩ := hstep
    cases hnext : next x with
    | none =>
      rw [h.done x s hat hnext] at hrunning
      cases hrunning
    | some x' =>
      obtain ⟨-, u, s'', hrun', hat', hother⟩ := h.turn x x' s hat hnext
      -- it is `u`'s turn, and the other task would have to wait
      by_cases htu : t = u
      · subst htu
        rw [hrun] at hrun'
        cases hrun'
        exact ⟨x', rfl, hat'⟩
      · rw [TestTask.eq_other htu, hother] at hrun
        cases hrun
  moves x s x' hat hnext := by
    obtain ⟨hrunning, t, s', hrun, -⟩ := h.turn x x' s hat hnext
    exact ⟨t, s', hrunning, hrun⟩

/-- **Programs whose tasks take turns pass**, within as many steps as the first place is away
from the last one. -/
theorem passes_of_turns {π : Type} {p : TestProgram σ} {At : π → σ → Prop} {first : π}
    {next : π → Option π} (h : p.TakesTurns At first next) (dist : π → ℕ)
    (hcloser : ∀ x x', next x = some x' → dist x' < dist x) : p.Passes (dist first) := by
  intro schedule s hrun
  obtain ⟨x, hat, hle, hend⟩ := h.followsPath.run dist hcloser hrun
  refine ⟨?_, ?_, by omega, fun hstuck => h.done x s hat (hend hstuck)⟩
  · cases hnext : next x with
    | none =>
      rw [h.done x s hat hnext]
      simp
    | some x' =>
      rw [(h.turn x x' s hat hnext).1]
      simp
  · intro t halt hrunning herror
    cases hnext : next x with
    | none =>
      rw [h.done x s hat hnext] at hrunning
      cases hrunning
    | some x' =>
      obtain ⟨-, u, s', hrun', -, hother⟩ := h.turn x x' s hat hnext
      by_cases htu : t = u
      · subst htu
        rw [hrun'] at herror
        cases herror
      · rw [TestTask.eq_other htu, hother] at herror
        cases herror
        rfl

end TestProgram

/-! ## To and fro -/

/-- Where `n` rounds stand: the first task is about to call, has called, the second task is
about to answer, has answered; or all rounds are over. -/
inductive Round (n : ℕ) where
  | call (i : Fin n)
  | called (i : Fin n)
  | answer (i : Fin n)
  | answered (i : Fin n)
  | finished

namespace Round

variable {n : ℕ}

/-- Round `i`, if there are that many. -/
def start (i : ℕ) : Round n := if h : i < n then .call ⟨i, h⟩ else .finished

def next : Round n → Option (Round n)
  | call i => some (.called i)
  | called i => some (.answer i)
  | answer i => some (.answered i)
  | answered i => some (start (i + 1))
  | finished => none

/-- How many steps are left. -/
def left : Round n → ℕ
  | call i => 4 * (n - i)
  | called i => 4 * (n - i) - 1
  | answer i => 4 * (n - i) - 2
  | answered i => 4 * (n - i) - 3
  | finished => 0

theorem left_start (i : ℕ) : (start i : Round n).left = 4 * (n - i) := by
  unfold start
  split
  · rfl
  · simp only [left]
    omega

theorem left_next {x x' : Round n} (h : x.next = some x') : x'.left < x.left := by
  cases x with
  | call i =>
    cases h
    have := i.isLt
    simp only [left]
    omega
  | called i =>
    cases h
    have := i.isLt
    simp only [left]
    omega
  | answer i =>
    cases h
    have := i.isLt
    simp only [left]
    omega
  | answered i =>
    cases h
    have := i.isLt
    rw [left_start]
    simp only [left]
    omega
  | finished => cases h

end Round

end Poski.Programs
