import Poski.FreeRtos.Timer

/-!
# Starting a FreeRTOS Timer from an ISR

An ISR cannot wait for room in the timer command queue. `pos_timer_start` sends its three
commands there with the `FromISR` functions and drops what these return, so that any number of
the three may be refused, the last ones first.

- `sendAll_commands` : which commands are accepted
- `drain_startFromIsr` : what they do to the timer
- `all_or_nothing_iff` : when that is what was asked for
-/

namespace Poski.FreeRtos

/-! ## The command queue -/

/-- The command queue as an ISR sees it: nobody takes commands out of it meanwhile. -/
structure CommandQueue where
  commands : List Command
  free : ℕ
  deriving DecidableEq, Repr

/-- `xTimerStopFromISR`, `xTimerChangePeriodFromISR` and `xTimerResetFromISR`: the command is
accepted if there is a free place. -/
def CommandQueue.sendFromIsr (queue : CommandQueue) (command : Command) : CommandQueue × Bool :=
  if 0 < queue.free then
    ({ commands := queue.commands ++ [command], free := queue.free - 1 }, true)
  else
    (queue, false)

/-- `pos_timer_start` in an ISR. -/
def posTimerStartFromIsr (queue : CommandQueue) (ticks : UInt32) : CommandQueue × PosError :=
  let ticks := if ticks = 0 then 1 else ticks
  let queue := (queue.sendFromIsr .stop).1
  let queue := (queue.sendFromIsr (.changePeriod ticks)).1
  let queue := (queue.sendFromIsr .reset).1
  (queue, .ok)

/-! ## What is accepted -/

variable {queue : CommandQueue} {command : Command} {ticks : UInt32}

/-- Commands are sent one after the other, whether or not they are accepted. -/
def CommandQueue.sendAll (queue : CommandQueue) (commands : List Command) : CommandQueue :=
  commands.foldl (fun queue command => (queue.sendFromIsr command).1) queue

theorem CommandQueue.sendFromIsr_of_free {free : ℕ} (hfree : queue.free = free + 1) :
    (queue.sendFromIsr command).1 =
      { commands := queue.commands ++ [command], free := free } := by
  simp [sendFromIsr, hfree]

theorem CommandQueue.sendFromIsr_of_full (hfull : queue.free = 0) :
    (queue.sendFromIsr command).1 = queue := by
  simp [sendFromIsr, hfull]

/-- As many of the commands are accepted as there are free places. -/
theorem CommandQueue.sendAll_commands (queue : CommandQueue) (commands : List Command) :
    (queue.sendAll commands).commands = queue.commands ++ commands.take queue.free := by
  induction commands generalizing queue with
  | nil => simp [sendAll]
  | cons command commands ih =>
    change ((queue.sendFromIsr command).1.sendAll commands).commands = _
    rw [ih]
    cases hfree : queue.free with
    | zero => rw [sendFromIsr_of_full hfree, hfree, List.take_zero, List.take_zero]
    | succ free =>
      rw [sendFromIsr_of_free hfree, List.take_succ_cons, List.append_assoc,
        List.singleton_append]

/-- An ISR sends what a task sends, and returns what a task returns. -/
theorem posTimerStartFromIsr_eq (queue : CommandQueue) (ticks : UInt32) :
    posTimerStartFromIsr queue ticks =
      (queue.sendAll (posTimerStart ticks).1, (posTimerStart ticks).2) := rfl

/-! ## What it does to the timer -/

/-- The period that a start asks for. -/
def requestedPeriod (ticks : UInt32) : UInt32 := if ticks = 0 then 1 else ticks

/-- The stop command alone stops the timer, and the reset command is not needed. -/
theorem drain_startFromIsr (timer : KTimer) (queue : CommandQueue) (ticks : UInt32) :
    drain timer (posTimerStartFromIsr queue ticks).1.commands =
      match queue.free with
      | 0 => drain timer queue.commands
      | 1 => { drain timer queue.commands with active := false }
      | _ + 2 => { active := true, period := requestedPeriod ticks } := by
  rw [posTimerStartFromIsr_eq, CommandQueue.sendAll_commands]
  match queue.free with
  | 0 => simp [drain]
  | 1 => simp [drain, posTimerStart, Command.apply]
  | 2 => simp [drain, posTimerStart, Command.apply, requestedPeriod]
  | free + 3 => simp [drain, posTimerStart, Command.apply, requestedPeriod]

/-- The timer is active with the requested period if the start succeeds, and as it was if the
start fails, each time when the commands in the queue have been applied. -/
def AllOrNothing (timer : KTimer) (queue : CommandQueue) (ticks : UInt32) : Prop :=
  let started := posTimerStartFromIsr queue ticks
  if started.2 = .ok then
    drain timer started.1.commands = { active := true, period := requestedPeriod ticks }
  else
    drain timer started.1.commands = drain timer queue.commands

/-- One free place, and a timer that is running. -/
theorem stops_running_timer :
    ¬∀ (timer : KTimer) (queue : CommandQueue) (ticks : UInt32),
      AllOrNothing timer queue ticks := by
  intro halways
  have hstopped : drain { active := true, period := 5 }
      (posTimerStartFromIsr { commands := [], free := 1 } 5).1.commands =
        { active := false, period := 5 } := by
    decide
  have hstarted : drain { active := true, period := 5 }
      (posTimerStartFromIsr { commands := [], free := 1 } 5).1.commands =
        { active := true, period := 5 } :=
    halways { active := true, period := 5 } { commands := [], free := 1 } 5
  rw [hstopped] at hstarted
  cases hstarted

/-- **A start from an ISR is all or nothing exactly if** two commands are accepted, or none is
and the timer is active with that period anyway. -/
theorem all_or_nothing_iff (timer : KTimer) (queue : CommandQueue) (ticks : UInt32) :
    AllOrNothing timer queue ticks ↔
      2 ≤ queue.free ∨
        queue.free = 0 ∧
          drain timer queue.commands = { active := true, period := requestedPeriod ticks } := by
  have hok : (posTimerStartFromIsr queue ticks).2 = .ok := rfl
  simp only [AllOrNothing, if_pos hok, drain_startFromIsr]
  match queue.free with
  | 0 => simp
  | 1 => simp
  | free + 2 => simp

end Poski.FreeRtos
