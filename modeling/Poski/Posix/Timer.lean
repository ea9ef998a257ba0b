import Mathlib.Logic.Function.Basic
import Poski.Lib.TransitionSystem
import Poski.Osal.Types
import Poski.Posix.Time

/-!
# The POSIX Timer, Call by Call

`os_timer.c` of the POSIX port (where it is not `__APPLE__`), each call executed as a whole,
and the callback together with its expiry. Any native call may fail; `ok` says whether it
does not.

The flag is set before the timer is armed, whether or not that succeeds, and it is cleared
by every expiry, also of a kernel timer that an earlier `pos_timer_init` has created.

- `start_fails` : a start that fails leaves the flag set
- `Mirrors` : the events that keep the flag in step with the kernel timer
- `keeps_iff` : exactly these do
- `active_iff_armed` : runs of such events
-/

namespace Poski.Posix

open Lib

/-! ## Kernel timers -/

/-- The kernel timers, numbered as they are created, and which of them are armed. -/
structure Kernel where
  created : ℕ
  armed : ℕ → Bool

/-- `timer_create`. -/
def timerCreate (kernel : Kernel) (ok : Bool) : Option ℕ × Kernel :=
  if ok then
    (some kernel.created,
      { created := kernel.created + 1, armed := Function.update kernel.armed kernel.created false })
  else (none, kernel)

/-- `timer_settime`: a value of zero disarms the timer. -/
def timerSettime (kernel : Kernel) (id : ℕ) (value : Timespec) (ok : Bool) : Bool × Kernel :=
  if ok then
    (true, { kernel with armed := Function.update kernel.armed id (value ≠ ⟨0, 0⟩) })
  else (false, kernel)

/-! ## os_timer.c -/

/-- `struct pos_timer`; a callback and its argument are known by their addresses, and a
`tm_timer` of `NULL` is `none`. -/
structure PosTimer where
  tmCb : ℕ
  tmTicks : UInt32
  tmTimer : Option ℕ
  tmActive : Bool
  tmArg : ℕ

/-- One timer object and the kernel timers. -/
structure TimerState where
  timer : PosTimer
  kernel : Kernel

/-- `its.it_value` for a number of ticks, as `pos_timer_start` computes it. -/
def timerValue (ticks : UInt32) : Timespec where
  tvSec := (ticks / 1000).toNat
  tvNsec := (ticks % 1000 * 1000000).toNat % 1000000000

/-- `if (ticks == 0) ticks = 1`. -/
def atLeastOne (ticks : UInt32) : UInt32 := if ticks = 0 then 1 else ticks

/-- `pos_timer_init`. -/
def posTimerInit (s : TimerState) (tmCb tmArg : ℕ) (ok : Bool) : PosError × TimerState :=
  let timer : PosTimer :=
    { tmCb := tmCb, tmTicks := 0, tmTimer := none, tmActive := false, tmArg := tmArg }
  match timerCreate s.kernel ok with
  | (some id, kernel) => (.ok, { timer := { timer with tmTimer := some id }, kernel := kernel })
  | (none, kernel) => (.error, { timer := timer, kernel := kernel })

/-- `pos_timer_start`; `now` is what `pos_time_get` returns. -/
def posTimerStart (s : TimerState) (now ticks : UInt32) (ok : Bool) : PosError × TimerState :=
  match s.timer.tmTimer with
  | none => (.einval, s)
  | some id =>
    let ticks := atLeastOne ticks
    -- both are set before `timer_settime`, whatever that returns
    let timer := { s.timer with tmTicks := now + ticks, tmActive := true }
    let (ret, kernel) := timerSettime s.kernel id (timerValue ticks) ok
    (if ret then .ok else .einval, { timer := timer, kernel := kernel })

/-- `pos_time_ms_to_ticks`, where there are 1000 ticks in a second. The source multiplies and
divides `double` values, which hold these numbers exactly. -/
def posTimeMsToTicks (ms : UInt32) : UInt32 := (ms.toUInt64 * 1000 / 1000).toUInt32

/-- `pos_timer_start_ms`. -/
def posTimerStartMs (s : TimerState) (now duration : UInt32) (ok : Bool) :
    PosError × TimerState :=
  posTimerStart s now (posTimeMsToTicks duration) ok

/-- `pos_timer_stop`. -/
def posTimerStop (s : TimerState) (ok : Bool) : PosError × TimerState :=
  match s.timer.tmTimer with
  | none => (.einval, s)
  | some id =>
    match timerSettime s.kernel id ⟨0, 0⟩ ok with
    | (false, kernel) => (.einval, { s with kernel := kernel })
    | (true, kernel) => (.ok, { timer := { s.timer with tmActive := false }, kernel := kernel })

/-- `pos_timer_cb`: the timer it leaves, and the call of the user's callback. -/
def posTimerCb (timer : PosTimer) : PosTimer × (ℕ × ℕ) :=
  ({ timer with tmActive := false }, (timer.tmCb, timer.tmArg))

/-- `pos_timer_is_active`. -/
def posTimerIsActive (s : TimerState) : Bool := s.timer.tmActive

/-- Kernel timer `id` expires, and the callback runs. -/
def expire (s : TimerState) (id : ℕ) : TimerState where
  timer := (posTimerCb s.timer).1
  kernel := { s.kernel with armed := Function.update s.kernel.armed id false }

/-! ## Runs -/

/-- A call, with its arguments and whether its native call succeeds, or an expiry. -/
inductive TimerEvent where
  | init (tmCb tmArg : ℕ) (ok : Bool)
  | start (now ticks : UInt32) (ok : Bool)
  | stop (ok : Bool)
  | expire (id : ℕ)
  deriving DecidableEq, Repr

namespace TimerState

/-- What a call returns, and the state after it or after an expiry. -/
def next (s : TimerState) : TimerEvent → Option PosError × TimerState
  | .init tmCb tmArg ok => Prod.map some id (posTimerInit s tmCb tmArg ok)
  | .start now ticks ok => Prod.map some id (posTimerStart s now ticks ok)
  | .stop ok => Prod.map some id (posTimerStop s ok)
  | .expire id => (none, Posix.expire s id)

/-- Only an armed timer expires. -/
def Enabled (s : TimerState) : TimerEvent → Prop
  | .expire id => s.kernel.armed id = true
  | _ => True

/-- The kernel timer of the object is armed. -/
def isArmed (s : TimerState) : Bool :=
  match s.timer.tmTimer with
  | none => false
  | some id => s.kernel.armed id

end TimerState

/-- A zeroed object, and no kernel timers. -/
def posTimer : TransitionSystem TimerState TimerEvent where
  init s := s.timer = ⟨0, 0, none, false, 0⟩ ∧ s.kernel.created = 0 ∧
    ∀ id, s.kernel.armed id = false
  step s e s' := s.Enabled e ∧ s' = (s.next e).2

/-! ## The defect -/

/-- A start fails on a timer that is not active. -/
theorem start_fails :
    ¬∀ s, posTimer.Reachable s → posTimerIsActive s = s.isArmed := by
  intro halways
  have h0 : posTimer.Run (fun _ _ => True) [] ⟨⟨0, 0, none, false, 0⟩, ⟨0, fun _ => false⟩⟩ :=
    .start ⟨rfl, rfl, fun _ => rfl⟩
  have h1 := h0.next (.init 1 2 true) trivial ⟨trivial, rfl⟩
  have h2 := h1.next (.start 0 5 false) trivial ⟨trivial, rfl⟩
  have hactive := halways _ ⟨_, h2⟩
  cases hactive

/-! ## Where the flag is right -/

/-- The native call of a start succeeds, or the timer was active already and its new ticks
are the old ones; what expires is the object's own kernel timer, or that one is not armed. -/
def Mirrors (s : TimerState) : TimerEvent → Prop
  | .start now ticks ok => ok = true ∨ s.timer.tmTimer = none ∨
      (s.timer.tmActive = true ∧ now + atLeastOne ticks = s.timer.tmTicks)
  | .expire id => s.timer.tmTimer = some id ∨ s.isArmed = false
  | _ => True

/-- A call that fails leaves `tm_active` and `tm_ticks` as they were; after an `init` that
fails the timer is inactive. -/
def Unchanged (s s' : TimerState) : TimerEvent → Prop
  | .init _ _ _ => s'.timer.tmActive = false
  | _ => s'.timer.tmActive = s.timer.tmActive ∧ s'.timer.tmTicks = s.timer.tmTicks

/-- The event leaves the flag in step with the kernel timer, and an error changes nothing. -/
def Keeps (s : TimerState) (e : TimerEvent) : Prop :=
  posTimerIsActive (s.next e).2 = (s.next e).2.isArmed ∧
    ∀ err, (s.next e).1 = some err → err ≠ .ok → Unchanged s (s.next e).2 e

variable {s s' : TimerState} {e : TimerEvent}

theorem atLeastOne_ne_zero (ticks : UInt32) : atLeastOne ticks ≠ 0 := by
  unfold atLeastOne
  split
  · decide
  · assumption

/-- The value of a timer that is started is not zero. -/
theorem timerValue_ne_zero {ticks : UInt32} (hne : ticks ≠ 0) : timerValue ticks ≠ ⟨0, 0⟩ := by
  intro hzero
  obtain ⟨hsec, hnsec⟩ := Timespec.mk.inj hzero
  have hpos : ticks.toNat ≠ 0 := fun h => hne (UInt32.toNat_inj.mp h)
  rw [Timespec.toNat_div_thousand] at hsec
  rw [Timespec.toNat_mod_mul] at hnsec
  have hsec' : ticks.toNat / 1000 = 0 := by exact_mod_cast hsec
  omega

/-- A start arms the timer, if its native call succeeds. -/
theorem posTimerStart_eq {id : ℕ} (htimer : s.timer.tmTimer = some id) (now ticks : UInt32)
    (ok : Bool) :
    posTimerStart s now ticks ok =
      (if ok then .ok else .einval,
        { timer := { s.timer with tmTicks := now + atLeastOne ticks, tmActive := true }
          kernel := if ok then { s.kernel with armed := Function.update s.kernel.armed id true }
            else s.kernel }) := by
  have hvalue := timerValue_ne_zero (atLeastOne_ne_zero ticks)
  cases ok <;> simp [posTimerStart, htimer, timerSettime, hvalue]

/-- A tick is a millisecond. -/
theorem posTimeMsToTicks_eq (ms : UInt32) : posTimeMsToTicks ms = ms := by
  have hlt := ms.toNat_lt
  have hproduct : ms.toNat * 1000 % 18446744073709551616 = ms.toNat * 1000 :=
    Nat.mod_eq_of_lt (by omega)
  apply UInt32.toNat_inj.mp
  simp [posTimeMsToTicks, hproduct, Nat.mod_eq_of_lt hlt]

/-- A stop disarms the timer and clears the flag, or changes nothing. -/
theorem posTimerStop_eq {id : ℕ} (htimer : s.timer.tmTimer = some id) (ok : Bool) :
    posTimerStop s ok =
      if ok then (.ok,
        { timer := { s.timer with tmActive := false }
          kernel := { s.kernel with armed := Function.update s.kernel.armed id false } })
      else (.einval, s) := by
  cases ok <;> simp [posTimerStop, htimer, timerSettime]

theorem keeps_init (s : TimerState) (tmCb tmArg : ℕ) (ok : Bool) :
    Keeps s (.init tmCb tmArg ok) := by
  cases ok <;>
    simp [Keeps, Unchanged, TimerState.next, posTimerInit, timerCreate, posTimerIsActive,
      TimerState.isArmed]

theorem keeps_stop (hactive : posTimerIsActive s = s.isArmed) (ok : Bool) :
    Keeps s (.stop ok) := by
  cases htimer : s.timer.tmTimer with
  | none => simpa [Keeps, Unchanged, TimerState.next, posTimerStop, htimer] using hactive
  | some id =>
    cases ok with
    | false =>
      simpa [Keeps, Unchanged, TimerState.next, posTimerStop_eq htimer] using hactive
    | true =>
      simp [Keeps, Unchanged, TimerState.next, posTimerStop_eq htimer, posTimerIsActive,
        TimerState.isArmed, htimer]

/-- A start that fails sets the flag and the ticks nevertheless. -/
theorem keeps_start_iff (hactive : posTimerIsActive s = s.isArmed) (now ticks : UInt32)
    (ok : Bool) :
    Keeps s (.start now ticks ok) ↔ Mirrors s (.start now ticks ok) := by
  cases htimer : s.timer.tmTimer with
  | none =>
    simpa [Keeps, Mirrors, Unchanged, TimerState.next, posTimerStart, htimer] using hactive
  | some id =>
    cases ok with
    | true =>
      simp [Keeps, Mirrors, Unchanged, TimerState.next, posTimerStart_eq htimer,
        posTimerIsActive, TimerState.isArmed, htimer]
    | false =>
      -- nothing has been armed, so the flag is right only if the timer was active before
      have harmed : s.kernel.armed id = s.timer.tmActive := by
        simpa [posTimerIsActive, TimerState.isArmed, htimer, eq_comm] using hactive
      simp [Keeps, Mirrors, Unchanged, TimerState.next, posTimerStart_eq htimer,
        posTimerIsActive, TimerState.isArmed, htimer, harmed]

/-- An expiry clears the flag, whichever kernel timer it is of. -/
theorem keeps_expire_iff (s : TimerState) (id : ℕ) :
    Keeps s (.expire id) ↔ Mirrors s (.expire id) := by
  cases htimer : s.timer.tmTimer with
  | none =>
    simp [Keeps, Mirrors, TimerState.next, expire, posTimerCb, posTimerIsActive,
      TimerState.isArmed, htimer]
  | some current =>
    -- an earlier kernel timer of the object may expire as well
    rcases eq_or_ne current id with rfl | hne
    · simp [Keeps, Mirrors, TimerState.next, expire, posTimerCb, posTimerIsActive,
        TimerState.isArmed, htimer]
    · simp [Keeps, Mirrors, TimerState.next, expire, posTimerCb, posTimerIsActive,
        TimerState.isArmed, htimer, hne, Function.update_of_ne]

/-- **Exactly the mirrored events** keep the flag in step with the kernel timer and leave a
failing call without effect. -/
theorem keeps_iff (hactive : posTimerIsActive s = s.isArmed) (e : TimerEvent) :
    Keeps s e ↔ Mirrors s e := by
  cases e with
  | init tmCb tmArg ok => exact iff_of_true (keeps_init s tmCb tmArg ok) trivial
  | start now ticks ok => exact keeps_start_iff hactive now ticks ok
  | stop ok => exact iff_of_true (keeps_stop hactive ok) trivial
  | expire id => exact keeps_expire_iff s id

/-- **The flag is the state of the kernel timer** in every run of mirrored events, and the
next event keeps that, and leaves no trace of a failing call, exactly if it is mirrored,
too. -/
theorem active_iff_armed (hreach : posTimer.ReachableWhen Mirrors s) :
    posTimerIsActive s = s.isArmed ∧ ∀ e, Keeps s e ↔ Mirrors s e := by
  have hactive : posTimerIsActive s = s.isArmed := by
    refine hreach.invariant (I := fun s => posTimerIsActive s = s.isArmed) ?_ ?_
    · rintro s ⟨htimer, -, -⟩
      simp [posTimerIsActive, TimerState.isArmed, htimer]
    · rintro s e s' hactive hcond ⟨-, rfl⟩
      exact ((keeps_iff hactive e).mpr hcond).1
  exact ⟨hactive, keeps_iff hactive⟩

/-- The timer is started, a second start fails within the same tick, and the timer expires. -/
theorem active_iff_armed_expired :
    ∃ s : TimerState, s.timer.tmTicks = 15 ∧ posTimerIsActive s = s.isArmed ∧
      ∀ e, Keeps s e ↔ Mirrors s e := by
  have h0 : posTimer.Run Mirrors [] ⟨⟨0, 0, none, false, 0⟩, ⟨0, fun _ => false⟩⟩ :=
    .start ⟨rfl, rfl, fun _ => rfl⟩
  have h1 := h0.next (.init 1 2 true) trivial ⟨trivial, rfl⟩
  have h2 := h1.next (.start 10 5 true) (.inl rfl) ⟨trivial, rfl⟩
  have h3 := h2.next (.start 10 5 false) (.inr (.inr ⟨rfl, rfl⟩)) ⟨trivial, rfl⟩
  have h4 := h3.next (.expire 0) (.inl rfl) ⟨rfl, rfl⟩
  exact ⟨_, rfl, active_iff_armed ⟨_, h4⟩⟩

end Poski.Posix
