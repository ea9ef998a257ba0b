import Poski.FreeRtos.Timer

/-!
# Room in the Timer Command Queue

The timer task sends commands to itself: `pos_timer_cb` sends one, and the user's function
one for each timer that it stops and three for each one that it starts, all of them with
`portMAX_DELAY`. The task takes none out meanwhile, and nobody else does.

- `Waits` : the timer task waits for room that only itself could make
- `never_waits_iff` : how much room the queue must have
-/

namespace Poski.FreeRtos.TimerQueue

open Lib

universe u

/-- A call that the user's function makes. -/
inductive Call (τ : Type u) where
  | start (timer : τ) (ticks : UInt32)
  | stop (timer : τ)

variable {τ : Type u}

/-- The commands that a call sends, each with its timer. -/
def Call.commands : Call τ → List (τ × Command)
  | .start timer ticks => (posTimerStart ticks).1.map (timer, ·)
  | .stop timer => posTimerStop.map (timer, ·)

def Call.isStart : Call τ → Bool
  | .start _ _ => true
  | .stop _ => false

def Call.isStop : Call τ → Bool
  | .start _ _ => false
  | .stop _ => true

/-- `pos_timer_cb`, where the user's function makes `calls`: the commands it sends. -/
def posTimerCb (timer : τ) (calls : List (Call τ)) : List (τ × Command) :=
  (posTimerStop.map (timer, ·)) ++ calls.flatMap Call.commands

theorem length_posTimerCb (timer : τ) (calls : List (Call τ)) :
    (posTimerCb timer calls).length =
      1 + 3 * calls.countP Call.isStart + calls.countP Call.isStop := by
  induction calls with
  | nil => rfl
  | cons call calls ih =>
    simp only [posTimerCb, List.length_append, List.flatMap_cons, List.countP_cons] at ih ⊢
    cases call with
    | start _ _ =>
      simp [Call.commands, Call.isStart, Call.isStop, posTimerStart, posTimerStop] at ih ⊢
      omega
    | stop _ =>
      simp [Call.commands, Call.isStart, Call.isStop, posTimerStop] at ih ⊢
      omega

/-! ## The machine -/

/-- Who sends a command. -/
inductive Act where
  | timerTask
  | other
  deriving DecidableEq, Repr

/-- The timer task runs `pos_timer_cb`: how many commands there are in the queue, how many
more others are going to send meanwhile, and what the timer task has yet to send. -/
structure State (τ : Type u) where
  occupancy : ℕ
  others : ℕ
  todo : List (τ × Command)

/-- A command is sent to a queue that has room. -/
inductive Step (queueLength : ℕ) : State τ → Act → State τ → Prop where
  | timerTask {s : State τ} {command : τ × Command} {todo : List (τ × Command)}
      (htodo : s.todo = command :: todo) (hroom : s.occupancy < queueLength) :
      Step queueLength s .timerTask { s with occupancy := s.occupancy + 1, todo := todo }
  | other {s : State τ} {others : ℕ} (hothers : s.others = others + 1)
      (hroom : s.occupancy < queueLength) :
      Step queueLength s .other { s with occupancy := s.occupancy + 1, others := others }

/-- One run of the callback. -/
def callback (queueLength occupancy others : ℕ) (timer : τ) (calls : List (Call τ)) :
    TransitionSystem (State τ) Act where
  init s := s = { occupancy := occupancy, others := others, todo := posTimerCb timer calls }
  step := Step queueLength

/-- The timer task has a command to send, and the queue is full. -/
def State.Waits (s : State τ) (queueLength : ℕ) : Prop :=
  s.todo ≠ [] ∧ queueLength ≤ s.occupancy

/-! ## How much room it takes -/

variable {queueLength occupancy others : ℕ} {timer : τ} {calls : List (Call τ)} {s s' : State τ}
  {a : Act}

/-- What is sent is not going to be sent any more. -/
theorem Step.total (h : Step queueLength s a s') :
    s'.occupancy + s'.others + s'.todo.length = s.occupancy + s.others + s.todo.length := by
  cases h with
  | timerTask htodo hroom =>
    simp only [htodo, List.length_cons]
    omega
  | other hothers hroom =>
    simp only [hothers]
    omega

/-- If there is not enough room, the timer task gets to wait. -/
theorem exists_waits (hreach : (callback queueLength occupancy others timer calls).Reachable s)
    (htodo : s.todo ≠ []) (hroom : queueLength < s.occupancy + s.others + s.todo.length) :
    ∃ s', (callback queueLength occupancy others timer calls).Reachable s' ∧
      s'.Waits queueLength := by
  -- as long as there is room, some command is sent, and one of the timer task's comes last
  have hpath : ∃ s', (callback queueLength occupancy others timer calls).LeadsTo s s' ∧
      s'.Waits queueLength := by
    refine exists_path_of_closer
      (I := fun s => s.todo ≠ [] ∧ queueLength < s.occupancy + s.others + s.todo.length)
      (fun s => queueLength - s.occupancy) ?_ ⟨htodo, hroom⟩
    intro s hinv hwaits
    obtain ⟨htodo, hroom⟩ := hinv
    have hlt : s.occupancy < queueLength := by
      by_contra hfull
      exact hwaits ⟨htodo, Nat.le_of_not_lt hfull⟩
    cases hothers : s.others with
    | succ n =>
      have hstep : Step queueLength s .other _ := .other hothers hlt
      have htotal := hstep.total
      exact ⟨_, ⟨_, hstep⟩, .inr ⟨⟨htodo, by omega⟩, by simp only; omega⟩⟩
    | zero =>
      cases htodo' : s.todo with
      | nil => exact absurd htodo' htodo
      | cons command todo =>
        have hstep : Step queueLength s .timerTask _ := .timerTask htodo' hlt
        have htotal := hstep.total
        -- the queue has room for this command, so this is not the last one
        have hmore : todo ≠ [] := by
          intro hnil
          simp only [htodo', hothers, hnil, List.length_singleton] at hroom
          omega
        exact ⟨_, ⟨_, hstep⟩, .inr ⟨⟨hmore, by omega⟩, by simp only; omega⟩⟩
  obtain ⟨s', hleads, hwaits⟩ := hpath
  exact ⟨s', TransitionSystem.Reachable.leadsTo hreach hleads, hwaits⟩

/-- The queue is as long as in the port's configuration, and empty; the user's function
starts four timers. -/
theorem callback_waits :
    ¬∀ (queueLength occupancy : ℕ) (timer : Fin 4) (calls : List (Call (Fin 4)))
      (s : State (Fin 4)), 1 ≤ queueLength →
        (callback queueLength occupancy 0 timer calls).Reachable s → ¬s.Waits queueLength := by
  intro halways
  have hinit : (callback 10 0 0 0 [.start 0 5, .start 1 5, .start 2 5, .start 3 5]).Reachable
      { occupancy := 0, others := 0, todo := posTimerCb (0 : Fin 4)
          [.start 0 5, .start 1 5, .start 2 5, .start 3 5] } :=
    ⟨[], .start rfl⟩
  obtain ⟨s, hreach, hwaits⟩ := exists_waits hinit (List.cons_ne_nil _ _) (by decide)
  exact halways 10 0 0 _ s (by decide) hreach hwaits

/-- **The timer task never waits exactly if there is room** for what is in the queue, for
what others send during the callback, and for the callback's own commands: one, three for
each start and one for each stop. -/
theorem never_waits_iff :
    (∀ s, (callback queueLength occupancy others timer calls).Reachable s →
      ¬s.Waits queueLength) ↔
    occupancy + others + (1 + 3 * calls.countP Call.isStart + calls.countP Call.isStop) ≤
      queueLength := by
  rw [← length_posTimerCb timer]
  constructor
  · intro hnever
    by_contra hroom
    have hinit : (callback queueLength occupancy others timer calls).Reachable
        { occupancy := occupancy, others := others, todo := posTimerCb timer calls } :=
      ⟨[], .start rfl⟩
    obtain ⟨s, hreach, hwaits⟩ :=
      exists_waits hinit (List.cons_ne_nil _ _) (Nat.lt_of_not_le hroom)
    exact hnever s hreach hwaits
  · intro hroom s hreach
    have htotal : s.occupancy + s.others + s.todo.length ≤ queueLength := by
      refine hreach.invariant
        (I := fun s => s.occupancy + s.others + s.todo.length ≤ queueLength) ?_ ?_
      · rintro s rfl
        exact hroom
      · intro s a s' hle _ hstep
        rw [Step.total hstep]
        exact hle
    rintro ⟨htodo, hfull⟩
    have hpos := List.length_pos_iff.mpr htodo
    omega

end Poski.FreeRtos.TimerQueue
