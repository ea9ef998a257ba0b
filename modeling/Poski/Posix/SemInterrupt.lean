import Poski.Posix.Deadline

/-!
# Signals During a POSIX Semaphore Wait

`pos_sem_take` (where it is not `__APPLE__`), while other tasks give the semaphore and signals
interrupt the wait. `sem_wait` and `sem_timedwait` return `-1` then, with `EINTR` in `errno`.
One branch maps what the native call returns and the other one `errno`, to `POS_ERROR` both, and
neither waits again.

- `waitDuring_cases` : a wait that succeeds takes one token, and any other takes none
- `takes_or_times_out_iff` : which takes are not cut short by a signal
-/

namespace Poski.Posix

open Lib

/-! ## Native waits -/

/-- What happens to a task while it waits, before its deadline if there is one. -/
inductive WaitEvent where
  /-- a signal is delivered to it -/
  | signal
  /-- another task calls `pos_sem_give`, and it is the one to get the token -/
  | give
  deriving DecidableEq, Repr

/-- What a wait comes to: a code, the semaphore, and the events that are still to come. -/
structure Outcome (ε : Type) where
  ret : ε
  sem : SemT
  rest : List WaitEvent

/-- A semaphore is waited for: success or an `errno` value, and nothing as long as the task
waits. -/
def waitDuring (sem : SemT) (events : List WaitEvent) : Option (Outcome Errno) :=
  match sem.take with
  | some sem' => some ⟨.success, sem', events⟩
  | none =>
    match events with
    | [] => none
    | .signal :: rest => some ⟨EINTR, sem, rest⟩
    | .give :: rest => waitDuring (posSemGive sem).2 rest

/-- `sem_wait`: what it returns. -/
def semWaitDuring (sem : SemT) (events : List WaitEvent) : Option (Outcome Errno) :=
  (waitDuring sem events).map fun outcome =>
    -- `errno` is not looked at: what is mapped is the `-1` of the call
    { outcome with ret := if outcome.ret = .success then .success else .other (-1) }

/-- `sem_timedwait`, and the value of `errno` after a failure: the deadline passes after all the
events. -/
def semTimedwaitDuring (looksFirst : Bool) (sem : SemT) (deadline : Timespec)
    (events : List WaitEvent) : Outcome Errno :=
  if looksFirst = true ∧ ¬deadline.Valid then ⟨.EINVAL, sem, events⟩
  else if 0 < sem.count ∨ deadline.Valid then
    (waitDuring sem events).getD ⟨.ETIMEDOUT, sem, []⟩
  else
    ⟨.EINVAL, sem, events⟩

/-! ## os_sem.c -/

/-- `return map_posix_to_osal_error(ret)`. -/
def Outcome.toOsal (outcome : Outcome Errno) : Outcome PosError :=
  { outcome with ret := mapPosixToOsalError outcome.ret }

/-- `pos_sem_take`. -/
def posSemTakeDuring (looksFirst : Bool) (clock : Option ClockReading) (sem : SemT)
    (timeout : UInt32) (events : List WaitEvent) : Except Halt (Outcome PosError) :=
  match posSemTakeWait clock timeout with
  | .clockFails => .ok (Outcome.toOsal ⟨.other (-1), sem, events⟩)
  | .forever =>
    match semWaitDuring sem events with
    | some outcome => .ok outcome.toOsal
    | none => .error .blocked
  | .timed deadline => .ok (semTimedwaitDuring looksFirst sem deadline events).toOsal

variable {looksFirst : Bool} {sem sem' : SemT} {clock : Option ClockReading} {timeout : UInt32}
  {events : List WaitEvent}

/-! ## What a wait comes to -/

/-- The tokens of the semaphore, and those that it is going to be given. -/
def tokens (sem : SemT) (events : List WaitEvent) : ℕ := sem.count + events.count .give

theorem tokens_of_take (htake : sem.take = some sem') (events : List WaitEvent) :
    tokens sem events = tokens sem' events + 1 := by
  rw [tokens, CountingSem.take_eq_some.mp htake, tokens, Nat.add_right_comm]

theorem lt_max_of_count_eq_zero (hzero : sem.count = 0) : sem.count < SEM_VALUE_MAX := by
  rw [hzero]
  decide

/-- A token that is given moves to the semaphore. -/
theorem tokens_of_give (hzero : sem.count = 0) (events : List WaitEvent) :
    tokens sem (.give :: events) = tokens (posSemGive sem).2 events := by
  rw [posSemGive_of_lt (lt_max_of_count_eq_zero hzero), tokens, tokens, List.count_cons_self,
    Nat.add_right_comm, Nat.add_assoc]

theorem waitDuring_of_take (htake : sem.take = some sem') (events : List WaitEvent) :
    waitDuring sem events = some ⟨.success, sem', events⟩ := by
  rw [waitDuring.eq_def, htake]

/-- A wait is served or interrupted, and it takes a token exactly if it is served. -/
theorem waitDuring_cases {outcome : Outcome Errno} (h : waitDuring sem events = some outcome) :
    outcome.ret = .success ∧ tokens sem events = tokens outcome.sem outcome.rest + 1 ∨
      outcome.ret = EINTR ∧ tokens sem events = tokens outcome.sem outcome.rest := by
  induction events generalizing sem with
  | nil =>
    cases htake : sem.take with
    | some sem' =>
      rw [waitDuring_of_take htake] at h
      cases h
      exact .inl ⟨rfl, tokens_of_take htake []⟩
    | none =>
      rw [waitDuring, htake] at h
      cases h
  | cons event events ih =>
    cases htake : sem.take with
    | some sem' =>
      rw [waitDuring_of_take htake] at h
      cases h
      exact .inl ⟨rfl, tokens_of_take htake (event :: events)⟩
    | none =>
      cases event with
      | signal =>
        rw [waitDuring, htake] at h
        cases h
        exact .inr ⟨rfl, by rw [tokens, tokens, List.count_cons_of_ne (by decide)]⟩
      | give =>
        rw [waitDuring, htake] at h
        -- the token moves from the events to the semaphore, and the wait goes on
        rw [tokens_of_give (CountingSem.take_eq_none.mp htake)]
        exact ih h

theorem waitDuring_give (hzero : sem.count = 0) (events : List WaitEvent) :
    waitDuring sem (.give :: events) = some ⟨.success, sem, events⟩ := by
  rw [waitDuring, CountingSem.take_eq_none.mpr hzero]
  simp only [posSemGive_of_lt (lt_max_of_count_eq_zero hzero)]
  exact waitDuring_of_take (CountingSem.take_eq_some.mpr rfl) events

/-- Without a token the first event decides. -/
theorem waitDuring_interrupted_iff :
    (∃ outcome, waitDuring sem events = some outcome ∧ outcome.ret = EINTR) ↔
      sem.count = 0 ∧ events.head? = some .signal := by
  cases htake : sem.take with
  | some sem' =>
    have hcount := CountingSem.take_eq_some.mp htake
    simp [waitDuring_of_take htake, hcount, EINTR]
  | none =>
    have hzero := CountingSem.take_eq_none.mp htake
    match events with
    | [] => simp [waitDuring, htake]
    | .signal :: rest => simp [waitDuring, htake, hzero]
    | .give :: rest => simp [waitDuring_give hzero, EINTR]

/-- A wait goes on only as long as nothing happens. -/
theorem eq_nil_of_waitDuring_eq_none (h : waitDuring sem events = none) : events = [] := by
  cases htake : sem.take with
  | some sem' =>
    rw [waitDuring_of_take htake] at h
    cases h
  | none =>
    match events with
    | [] => rfl
    | .signal :: rest =>
      rw [waitDuring, htake] at h
      cases h
    | .give :: rest =>
      rw [waitDuring_give (CountingSem.take_eq_none.mp htake)] at h
      cases h

/-! ## What a take returns -/

/-- The deadline of the call is valid, if it has one. -/
def DeadlineValid (reading : ClockReading) (timeout : UInt32) : Prop :=
  timeout ≠ POS_TIME_FOREVER → ((reading.time.addSec timeout).addNsec timeout).Valid

/-- Both branches report a wait that is interrupted as `POS_ERROR`. -/
theorem posSemTakeDuring_eq {reading : ClockReading} (hvalid : DeadlineValid reading timeout) :
    posSemTakeDuring looksFirst (some reading) sem timeout events =
      match waitDuring sem events with
      | some outcome =>
        .ok ⟨if outcome.ret = .success then .ok else .error, outcome.sem, outcome.rest⟩
      | none =>
        if timeout = POS_TIME_FOREVER then .error .blocked else .ok ⟨.timeout, sem, []⟩ := by
  by_cases hforever : timeout = POS_TIME_FOREVER
  · have hwait : posSemTakeWait (some reading) timeout = .forever := if_pos hforever
    -- `sem_wait`: an interrupted call returns `-1`, which is mapped to `POS_ERROR`
    rw [posSemTakeDuring, hwait, if_pos hforever]
    cases hduring : waitDuring sem events with
    | none => simp [semWaitDuring, hduring]
    | some outcome =>
      rcases waitDuring_cases hduring with ⟨hret, _⟩ | ⟨hret, _⟩ <;>
        simp [semWaitDuring, hduring, hret, Outcome.toOsal, mapPosixToOsalError, EINTR]
  · have hwait := TimedCall.semTake.wait_eq reading hforever
    have hvalid' : ((reading.time.addSec timeout).addNsec timeout).Valid := hvalid hforever
    have hlooks : ¬(looksFirst = true ∧ ¬((reading.time.addSec timeout).addNsec timeout).Valid) :=
      fun hinvalid => hinvalid.2 hvalid'
    have htimed : 0 < sem.count ∨ ((reading.time.addSec timeout).addNsec timeout).Valid :=
      .inr hvalid'
    -- `sem_timedwait`: the `EINTR` itself is mapped, to `POS_ERROR`, too
    rw [TimedCall.wait] at hwait
    rw [posSemTakeDuring, hwait, if_neg hforever]
    simp only [semTimedwaitDuring, if_neg hlooks, if_pos htimed]
    cases hduring : waitDuring sem events with
    | none => simp [Outcome.toOsal, mapPosixToOsalError]
    | some outcome =>
      rcases waitDuring_cases hduring with ⟨hret, _⟩ | ⟨hret, _⟩ <;>
        simp [hret, Outcome.toOsal, mapPosixToOsalError, EINTR]

theorem semTimedwaitDuring_nil (looksFirst : Bool) (sem : SemT) (deadline : Timespec) :
    semTimedwaitDuring looksFirst sem deadline [] =
      ⟨(semTimedwait looksFirst sem deadline).1, (semTimedwait looksFirst sem deadline).2, []⟩ := by
  unfold semTimedwaitDuring semTimedwait
  by_cases hlooks : looksFirst = true ∧ ¬deadline.Valid
  · simp only [if_pos hlooks]
  · simp only [if_neg hlooks]
    cases htake : sem.take with
    | some sem' =>
      have hpos : 0 < sem.count := by
        rw [CountingSem.take_eq_some.mp htake]
        exact Nat.succ_pos _
      simp [waitDuring_of_take htake, hpos]
    | none =>
      have hzero := CountingSem.take_eq_none.mp htake
      by_cases hdeadline : deadline.Valid
      · simp [waitDuring, htake, hdeadline]
      · simp [hzero, hdeadline]

/-- If nothing happens meanwhile, this is the call of before. -/
theorem posSemTakeDuring_nil (looksFirst : Bool) (clock : Option ClockReading) (sem : SemT)
    (timeout : UInt32) :
    (posSemTakeDuring looksFirst clock sem timeout []).map
        (fun outcome => (outcome.ret, outcome.sem)) =
      posSemTake looksFirst clock sem timeout := by
  rw [posSemTake_eq_wait, posSemTakeDuring]
  cases posSemTakeWait clock timeout with
  | clockFails => rfl
  | forever =>
    cases htake : sem.take <;>
      simp [semWaitDuring, waitDuring, htake, Except.map, Outcome.toOsal, NativeWait.takeSem]
  | timed deadline =>
    simp [semTimedwaitDuring_nil, Except.map, Outcome.toOsal, NativeWait.takeSem]

/-! ## Interrupted takes -/

/-- The take succeeds and has taken one token, or times out and has taken none. Without a
deadline it succeeds, or has not come back yet. -/
def TakesOrTimesOut (looksFirst : Bool) (reading : ClockReading) (sem : SemT) (timeout : UInt32)
    (events : List WaitEvent) : Prop :=
  match posSemTakeDuring looksFirst (some reading) sem timeout events with
  | .error _ => timeout = POS_TIME_FOREVER
  | .ok outcome =>
    (outcome.ret = .ok ∧ tokens sem events = tokens outcome.sem outcome.rest + 1) ∨
      (timeout ≠ POS_TIME_FOREVER ∧ outcome.ret = .timeout ∧
        tokens sem events = tokens outcome.sem outcome.rest)

/-- There is no token, and a signal comes before one is given. -/
theorem take_interrupted :
    ¬∀ (looksFirst : Bool) (reading : ClockReading) (sem : SemT) (timeout : UInt32)
      (events : List WaitEvent),
      DeadlineValid reading timeout → TakesOrTimesOut looksFirst reading sem timeout events := by
  intro halways
  have htakes := halways false default ⟨0, Nat.zero_le _⟩ POS_TIME_FOREVER [.signal, .give]
    (fun hfinite => absurd rfl hfinite)
  rcases htakes with ⟨herr, _⟩ | ⟨_, herr, _⟩ <;> cases herr

/-- **A take keeps its contract exactly if** it is not interrupted: there is a token, or one is
given, or the deadline passes, before a signal comes. -/
theorem takes_or_times_out_iff (looksFirst : Bool) {reading : ClockReading}
    (hvalid : DeadlineValid reading timeout) :
    TakesOrTimesOut looksFirst reading sem timeout events ↔
      ¬(sem.count = 0 ∧ events.head? = some .signal) := by
  rw [TakesOrTimesOut, posSemTakeDuring_eq hvalid]
  cases hduring : waitDuring sem events with
  | none =>
    -- nothing happens: the deadline passes, or the call does not come back
    have hnil := eq_nil_of_waitDuring_eq_none hduring
    subst hnil
    by_cases hforever : timeout = POS_TIME_FOREVER
    · simp [hforever]
    · simp [hforever]
  | some outcome =>
    rw [← waitDuring_interrupted_iff, hduring]
    rcases waitDuring_cases hduring with ⟨hret, htokens⟩ | ⟨hret, htokens⟩
    · simp [hret, htokens, EINTR]
    · simp [hret, EINTR]

/-- A token is given just before the signal. -/
theorem takes_or_times_out_iff_given :
    TakesOrTimesOut true default ⟨0, Nat.zero_le _⟩ 100 [.give, .signal] ↔
      ¬((0 : ℕ) = 0 ∧ [WaitEvent.give, .signal].head? = some .signal) :=
  takes_or_times_out_iff true fun _ => by decide

end Poski.Posix
