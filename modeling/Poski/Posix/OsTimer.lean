import Poski.Posix.Timer

/-!
# The Timer Class

`OsTimer` of `OsTimer.h` over a POSIX timer. The destructor does nothing, so the kernel timer
outlives the object, and its expiry calls back through the memory where the object was.

- `called_late` : a timer that is destroyed while it is running
- `DestroysDisarmed` : the condition on destructions
- `never_called_late` : runs under the condition
-/

namespace Poski.Posix.OsTimer

open Lib

/-- The constructor, on memory `s`. -/
def construct (b : Build) (s : TimerState) (cb arg : ℕ) (ok : Bool) : Except Halt TimerState := do
  let (err, s) := posTimerInit s cb arg ok
  b.assert (err = .ok)
  return s

/-- What can happen: a method is called, the kernel timer expires, or the object is destroyed. -/
inductive Act where
  | start (now ticks : UInt32) (ok : Bool)
  | startMs (now ms : UInt32) (ok : Bool)
  | stop (ok : Bool)
  | expire (id : ℕ)
  | destroy
  deriving DecidableEq, Repr

/-- The object or what is left of it, its kernel timers, and the calls of the user's callback
that have been made since the destructor has returned. -/
structure State extends TimerState where
  destroyed : Bool
  lateCalls : List (ℕ × ℕ)

/-- One step. The methods can be called as long as the object exists. -/
inductive Step : State → Act → State → Prop where
  | start {s : State} {now ticks : UInt32} {ok : Bool} (halive : s.destroyed = false) :
      Step s (.start now ticks ok)
        { s with toTimerState := (posTimerStart s.toTimerState now ticks ok).2 }
  | startMs {s : State} {now ms : UInt32} {ok : Bool} (halive : s.destroyed = false) :
      Step s (.startMs now ms ok)
        { s with toTimerState := (posTimerStartMs s.toTimerState now ms ok).2 }
  | stop {s : State} {ok : Bool} (halive : s.destroyed = false) :
      Step s (.stop ok) { s with toTimerState := (posTimerStop s.toTimerState ok).2 }
  -- the callback runs at once
  | expire {s : State} {id : ℕ} (harmed : s.kernel.armed id = true) :
      Step s (.expire id) { s with
        toTimerState := Posix.expire s.toTimerState id
        lateCalls :=
          if s.destroyed then s.lateCalls ++ [(posTimerCb s.timer).2] else s.lateCalls }
  -- `~OsTimer() = default`
  | destroy {s : State} (halive : s.destroyed = false) :
      Step s .destroy { s with destroyed := true }

/-- An object that its constructor has returned, and that nobody has used yet. -/
def osTimer (b : Build) : TransitionSystem State Act where
  init s := (∃ s₀ cb arg ok, (∀ id, s₀.kernel.armed id = false) ∧
      construct b s₀ cb arg ok = .ok s.toTimerState) ∧
    s.destroyed = false ∧ s.lateCalls = []
  step := Step

/-! ## The defect -/

/-- The object is destroyed while its kernel timer is armed. -/
theorem called_late :
    ¬∀ (b : Build) (s : State), (osTimer b).Reachable s → s.lateCalls = [] := by
  intro halways
  have h0 : (osTimer ⟨false⟩).Run (fun _ _ => True) []
      { timer := ⟨1, 0, some 0, false, 2⟩,
        kernel := (timerCreate ⟨0, fun _ => false⟩ true).2,
        destroyed := false, lateCalls := [] } :=
    .start ⟨⟨⟨⟨0, 0, none, false, 0⟩, ⟨0, fun _ => false⟩⟩, 1, 2, true, fun _ => rfl, rfl⟩,
      rfl, rfl⟩
  have h1 := h0.next (.start 0 1000 true) trivial (.start rfl)
  have h2 := h1.next .destroy trivial (.destroy rfl)
  have h3 := h2.next (.expire 0) trivial (.expire rfl)
  have hnone := halways _ _ ⟨_, h3⟩
  cases hnone

/-! ## Where it does no harm -/

/-- The object is destroyed only while its kernel timer is not armed. -/
def DestroysDisarmed (s : State) : Act → Prop
  | .destroy => s.isArmed = false
  | _ => True

/-- No kernel timer but the object's own is armed. -/
def Own (s : TimerState) : Prop :=
  ∀ id, s.kernel.armed id = true → s.timer.tmTimer = some id

/-- The invariant. -/
structure Inv (s : State) : Prop where
  own : Own s.toTimerState
  disarmed : s.destroyed = true → s.isArmed = false
  not_late : s.lateCalls = []

variable {b : Build} {s s' : State} {a : Act}

theorem own_construct {s₀ s : TimerState} {cb arg : ℕ} {ok : Bool}
    (hnone : ∀ id, s₀.kernel.armed id = false) (h : construct b s₀ cb arg ok = .ok s) : Own s := by
  obtain ⟨_, _, h⟩ := bind_eq_ok.mp h
  cases h
  intro id harmed
  cases ok with
  | false => simp [timerCreate, hnone] at harmed
  | true =>
    -- the new kernel timer is not armed, and nor was any other
    rcases eq_or_ne id s₀.kernel.created with rfl | hne
    · simp [timerCreate] at harmed
    · simp [timerCreate, Function.update_of_ne hne, hnone] at harmed

theorem Own.start {s : TimerState} (hown : Own s) (now ticks : UInt32) (ok : Bool) :
    Own (posTimerStart s now ticks ok).2 := by
  cases htimer : s.timer.tmTimer with
  | none => simpa [posTimerStart, htimer] using hown
  | some current =>
    intro id harmed
    rw [posTimerStart_eq htimer] at harmed ⊢
    rcases eq_or_ne id current with rfl | hne
    · exact htimer
    · cases ok with
      | false => exact hown id harmed
      | true =>
        simp only [if_true, Function.update_of_ne hne] at harmed
        exact hown id harmed

theorem Own.stop {s : TimerState} (hown : Own s) (ok : Bool) : Own (posTimerStop s ok).2 := by
  cases htimer : s.timer.tmTimer with
  | none => simpa [posTimerStop, htimer] using hown
  | some current =>
    intro id harmed
    rw [posTimerStop_eq htimer] at harmed ⊢
    cases ok with
    | false => exact hown id harmed
    | true =>
      rcases eq_or_ne id current with rfl | hne
      · simp at harmed
      · simp only [if_true, Function.update_of_ne hne] at harmed
        exact hown id harmed

theorem Own.expire {s : TimerState} (hown : Own s) (current : ℕ) :
    Own (Posix.expire s current) := by
  intro id harmed
  rcases eq_or_ne id current with rfl | hne
  · simp [Posix.expire] at harmed
  · simp only [Posix.expire, Function.update_of_ne hne] at harmed
    exact hown id harmed

/-- An armed kernel timer is the object's own, and that is armed. -/
theorem Own.isArmed {s : TimerState} (hown : Own s) {id : ℕ} (harmed : s.kernel.armed id = true) :
    s.isArmed = true := by
  simpa [TimerState.isArmed, hown id harmed] using harmed

theorem Inv.step (hinv : Inv s) (hcond : DestroysDisarmed s a) (h : Step s a s') : Inv s' := by
  cases h with
  | start halive =>
    refine ⟨hinv.own.start _ _ _, fun hdestroyed => ?_, hinv.not_late⟩
    exact absurd (halive.symm.trans hdestroyed) Bool.false_ne_true
  | startMs halive =>
    refine ⟨hinv.own.start _ _ _, fun hdestroyed => ?_, hinv.not_late⟩
    exact absurd (halive.symm.trans hdestroyed) Bool.false_ne_true
  | stop halive =>
    refine ⟨hinv.own.stop _, fun hdestroyed => ?_, hinv.not_late⟩
    exact absurd (halive.symm.trans hdestroyed) Bool.false_ne_true
  | expire harmed =>
    -- a destroyed object has no armed kernel timer, so this one has not been destroyed
    have halive : s.destroyed = false := by
      rw [← Bool.not_eq_true]
      intro hdestroyed
      exact absurd (hinv.own.isArmed harmed) (by simp [hinv.disarmed hdestroyed])
    refine ⟨hinv.own.expire _, fun hdestroyed => ?_, by simp [halive, hinv.not_late]⟩
    exact absurd (halive.symm.trans hdestroyed) Bool.false_ne_true
  | destroy halive => exact ⟨hinv.own, fun _ => hcond, hinv.not_late⟩

/-- **The callback is not invoked after the destructor** in every run in which the object is
destroyed only while its kernel timer is not armed; and a destruction makes it possible
exactly if the kernel timer is armed. -/
theorem never_called_late (hreach : (osTimer b).ReachableWhen DestroysDisarmed s) :
    s.lateCalls = [] ∧
    ∀ s', (osTimer b).step s .destroy s' →
      ((∃ id s'', (osTimer b).step s' (.expire id) s'' ∧ s''.lateCalls ≠ []) ↔
        ¬DestroysDisarmed s .destroy) := by
  have hinv : Inv s := by
    refine hreach.invariant ?_ fun _ _ _ hinv hcond hstep => hinv.step hcond hstep
    rintro s ⟨⟨s₀, cb, arg, ok, hnone, hconstruct⟩, halive, hlate⟩
    exact ⟨own_construct hnone hconstruct, by simp [halive], hlate⟩
  refine ⟨hinv.not_late, fun s' hdestroy => ?_⟩
  cases hdestroy
  rw [DestroysDisarmed, Bool.not_eq_false]
  constructor
  · rintro ⟨id, s'', hexpire, -⟩
    cases hexpire with
    | expire harmed => exact hinv.own.isArmed harmed
  · intro harmed
    cases htimer : s.timer.tmTimer with
    | none => simp [TimerState.isArmed, htimer] at harmed
    | some id =>
      rw [TimerState.isArmed, htimer] at harmed
      exact ⟨id, _, .expire harmed, by simp⟩

/-- The timer is started and expires, and then it is destroyed. -/
theorem never_called_late_expired :
    ∃ s : State, s.destroyed = true ∧ s.lateCalls = [] ∧
      ∀ s', (osTimer ⟨false⟩).step s .destroy s' →
        ((∃ id s'', (osTimer ⟨false⟩).step s' (.expire id) s'' ∧ s''.lateCalls ≠ []) ↔
          ¬DestroysDisarmed s .destroy) := by
  have h0 : (osTimer ⟨false⟩).Run DestroysDisarmed []
      { timer := ⟨1, 0, some 0, false, 2⟩,
        kernel := (timerCreate ⟨0, fun _ => false⟩ true).2,
        destroyed := false, lateCalls := [] } :=
    .start ⟨⟨⟨⟨0, 0, none, false, 0⟩, ⟨0, fun _ => false⟩⟩, 1, 2, true, fun _ => rfl, rfl⟩,
      rfl, rfl⟩
  have h1 := h0.next (.startMs 0 200 true) trivial (.startMs rfl)
  have h2 := h1.next (.expire 0) trivial (.expire rfl)
  have h3 := h2.next .destroy rfl (.destroy rfl)
  exact ⟨_, rfl, never_called_late ⟨_, h3⟩⟩

end Poski.Posix.OsTimer
