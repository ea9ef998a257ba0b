import Poski.Osal.Types

/-!
# Timers on Apple

`os_timer.c` of the POSIX port where it is `__APPLE__`. A timer is a dispatch source, which
is created suspended. `pos_timer_start` resumes it, `pos_timer_stop` and the timer's own
callback cancel it for good, and nothing suspends it again.

- `restart_fatal` : a timer that is started, stopped and started again
- `Spent` : what a timer is after its first event
- `starts_kept_iff` : a start keeps its promise only as the very first event
-/

namespace Poski.Posix.Apple

/-! ## libdispatch -/

/-- A timer source; when exactly it fires is left out. -/
structure Source where
  suspendCount : ℕ
  cancelled : Bool
  timerSet : Bool
  deriving DecidableEq, Repr

/-- `dispatch_resume` of a source that is not suspended. -/
inductive Fatal where
  | overResume
  deriving DecidableEq, Repr

namespace Source

/-- `dispatch_source_create`. -/
def create : Source := { suspendCount := 1, cancelled := false, timerSet := false }

/-- `dispatch_source_set_timer`. -/
def setTimer (s : Source) : Source := { s with timerSet := true }

/-- `dispatch_resume`. -/
def resume (s : Source) : Except Fatal Source :=
  if s.suspendCount = 0 then .error .overResume
  else .ok { s with suspendCount := s.suspendCount - 1 }

/-- `dispatch_source_cancel`. -/
def cancel (s : Source) : Source := { s with cancelled := true }

/-- The source is going to fire. -/
def canFire (s : Source) : Bool := s.suspendCount = 0 && !s.cancelled && s.timerSet

end Source

/-! ## os_timer.c -/

/-- `struct pos_timer`; a callback and its argument are known by their addresses, and a
`NULL` source is `none`. -/
structure PosTimer where
  tmCb : ℕ
  tmArg : ℕ
  tmActive : Bool
  tmTicks : UInt64
  tmTimer : Option Source
  deriving DecidableEq, Repr

/-- `pos_timer_init`. -/
def posTimerInit (tmCb tmArg : ℕ) : PosTimer × PosError :=
  ({ tmCb := tmCb, tmArg := tmArg, tmActive := false, tmTicks := 0,
     tmTimer := some .create }, .ok)

/-- `pos_timer_start`; `now` is what `pos_time_get` returns. -/
def posTimerStart (timer : PosTimer) (now ticks : UInt64) : Except Fatal (PosTimer × PosError) :=
  match timer.tmTimer with
  | none => .ok (timer, .einval)
  | some dispatch => do
    let timer := { timer with tmTicks := now + ticks }
    let dispatch ← dispatch.setTimer.resume
    return ({ timer with tmActive := true, tmTimer := some dispatch }, .ok)

/-- `pos_timer_stop`. -/
def posTimerStop (timer : PosTimer) : PosTimer × PosError :=
  match timer.tmTimer with
  | none => (timer, .einval)
  | some dispatch => ({ timer with tmActive := false, tmTimer := some dispatch.cancel }, .ok)

/-- `pos_timer_cb`: the timer it leaves, and the call of the user's callback. -/
def posTimerCb (timer : PosTimer) : PosTimer × (ℕ × ℕ) :=
  let timer := (posTimerStop timer).1
  (timer, (timer.tmCb, timer.tmArg))

/-! ## Runs -/

/-- A call of `pos_timer_start` or `pos_timer_stop`, or an expiry. -/
inductive Event where
  | start (now ticks : UInt64)
  | stop
  | expire
  deriving DecidableEq, Repr

def Event.isStart : Event → Bool
  | .start _ _ => true
  | _ => false

/-- The timer is armed and able to fire. -/
def PosTimer.canFire (timer : PosTimer) : Bool :=
  match timer.tmTimer with
  | none => false
  | some dispatch => dispatch.canFire

/-- A whole run keeps the promise: no call is fatal, and a start that returns `POS_OK` leaves
the timer able to fire. An expiry may stand anywhere, also where the timer cannot fire. -/
def Kept : PosTimer → List Event → Prop
  | _, [] => True
  | timer, .start now ticks :: events =>
    match posTimerStart timer now ticks with
    | .error _ => False
    | .ok (timer, err) => (err = .ok → timer.canFire = true) ∧ Kept timer events
  | timer, .stop :: events => Kept (posTimerStop timer).1 events
  | timer, .expire :: events => Kept (posTimerCb timer).1 events

/-- The source has been resumed or cancelled. -/
def PosTimer.Spent (timer : PosTimer) : Prop :=
  ∃ dispatch, timer.tmTimer = some dispatch ∧
    (dispatch.suspendCount = 0 ∨ dispatch.cancelled = true)

variable {timer : PosTimer} {events : List Event}

/-- A stop cancels the source, whatever it was. -/
theorem spent_stop {dispatch : Source} (h : timer.tmTimer = some dispatch) :
    (posTimerStop timer).1.Spent := by
  refine ⟨dispatch.cancel, ?_, .inr rfl⟩
  simp [posTimerStop, h]

theorem PosTimer.Spent.stop (h : timer.Spent) : (posTimerStop timer).1.Spent := by
  obtain ⟨dispatch, htimer, _⟩ := h
  exact spent_stop htimer

/-- The first start resumes a source that is suspended and not cancelled. -/
theorem posTimerStart_new (tmCb tmArg : ℕ) (now ticks : UInt64) :
    ∃ timer, posTimerStart (posTimerInit tmCb tmArg).1 now ticks = .ok (timer, .ok) ∧
      timer.canFire = true ∧ timer.Spent :=
  ⟨_, rfl, rfl, _, rfl, .inl rfl⟩

/-- A spent timer cannot be started: the start is fatal, or the source is cancelled. -/
theorem PosTimer.Spent.not_kept (h : timer.Spent) (now ticks : UInt64) :
    ¬Kept timer (.start now ticks :: events) := by
  obtain ⟨dispatch, htimer, hspent⟩ := h
  by_cases hcount : dispatch.suspendCount = 0
  -- `dispatch_resume` of a source that is not suspended
  · simp [Kept, posTimerStart, htimer, Source.setTimer, Source.resume, hcount, bind, Except.bind]
  -- the start returns `POS_OK`, and nothing is going to fire
  · have hcancelled : dispatch.cancelled = true := hspent.resolve_left hcount
    simp [Kept, posTimerStart, htimer, Source.setTimer, Source.resume, hcount, bind, Except.bind,
      pure, Except.pure, PosTimer.canFire, Source.canFire, hcancelled]

/-- The promise is kept of a spent timer exactly if it is not started any more. -/
theorem PosTimer.Spent.kept_iff (h : timer.Spent) :
    Kept timer events ↔ ∀ e ∈ events, e.isStart = false := by
  induction events generalizing timer with
  | nil => simp [Kept]
  | cons e events ih =>
    cases e with
    | start now ticks => simp [h.not_kept, Event.isStart]
    | stop => simp [Kept, ih h.stop, Event.isStart]
    | expire => simp [Kept, posTimerCb, ih h.stop, Event.isStart]

/-- The timer is started, stopped and started again. -/
theorem restart_fatal :
    ¬∀ (tmCb tmArg : ℕ) (events : List Event), Kept (posTimerInit tmCb tmArg).1 events := by
  intro halways
  exact (halways 0 0 [.start 0 1000, .stop, .start 0 1000]).2

/-- **A start keeps its promise only as the very first event** of the timer: in a run of any
length every start that returns `POS_OK` leaves the timer able to fire, and no call is
fatal, exactly if no start comes after another event. -/
theorem starts_kept_iff (tmCb tmArg : ℕ) :
    Kept (posTimerInit tmCb tmArg).1 events ↔ ∀ e ∈ events.tail, e.isStart = false := by
  cases events with
  | nil => simp [Kept]
  | cons e events =>
    cases e with
    | start now ticks =>
      obtain ⟨timer, hstart, hfire, hspent⟩ := posTimerStart_new tmCb tmArg now ticks
      simp [Kept, hstart, hfire, hspent.kept_iff]
    | stop => exact (spent_stop rfl).kept_iff
    | expire => exact (spent_stop rfl).kept_iff

end Poski.Posix.Apple
