import Poski.Posix.Clock
import Poski.Posix.Native
import Poski.Spec.Sleep

/-!
# Sleeping on POSIX

`pos_task_sleep_ms` and `pos_task_sleep` of `os_task.c` of the POSIX port. A signal ends a
`nanosleep` early, and the loop calls it again with what remains. All that is known of
`nanosleep` is what is documented; every call of a run may be interrupted, after any part of its
request.

- `sleepLoop_simulates` : the loop is a sleep in rounds
- `request_sleepable` : no request is refused
- `ends_uninterrupted` : the loop goes on only as long as signals come
- `sleeps_ms` : what a whole run has slept
-/

namespace Poski.Posix

open Lib TransitionSystem

/-! ## nanosleep -/

/-- One call: what it is passed, what it returns and stores in `errno` and `remaining`, and for
how many nanoseconds the task has slept. -/
structure NanosleepCall where
  request : Timespec
  ret : ℤ
  errno : Errno
  remaining : Timespec
  slept : ℚ
  deriving DecidableEq

/-- `nanosleep` refuses any other request. -/
def Timespec.Sleepable (ts : Timespec) : Prop := 0 ≤ ts.tvSec ∧ ts.Valid

instance (ts : Timespec) : Decidable ts.Sleepable :=
  inferInstanceAs (Decidable (0 ≤ ts.tvSec ∧ ts.Valid))

/-- What is documented of a call. -/
inductive NanosleepCall.Documented : NanosleepCall → Prop where
  /-- it returns after the whole request, or later -/
  | whole {request remaining : Timespec} {errno : Errno} {slept : ℚ}
      (hrequest : request.Sleepable) (hslept : request.toNs ≤ slept) :
      Documented ⟨request, 0, errno, remaining, slept⟩
  /-- a signal ends it, and it stores the request less the time slept -/
  | interrupted {request remaining : Timespec} {slept : ℚ} (hrequest : request.Sleepable)
      (hremaining : remaining.Valid) (hnonneg : 0 ≤ remaining.toNs)
      (hle : remaining.toNs ≤ request.toNs)
      (hslept : ((request.toNs - remaining.toNs : ℤ) : ℚ) ≤ slept) :
      Documented ⟨request, -1, EINTR, remaining, slept⟩
  /-- it does not sleep -/
  | refused {request remaining : Timespec} (hrequest : ¬request.Sleepable) :
      Documented ⟨request, -1, .EINVAL, remaining, 0⟩

namespace NanosleepCall

/-- The condition of the loop: `nanosleep(..) == -1 && errno == EINTR`. -/
def interrupted (call : NanosleepCall) : Bool := call.ret = -1 && call.errno = EINTR

/-- For how many nanoseconds the call reports to have slept: all of its request, or all but what
remains of it, or for none if it is refused. -/
def told (call : NanosleepCall) : ℚ :=
  if call.ret = 0 then call.request.toNs
  else if call.errno = EINTR then call.request.toNs - call.remaining.toNs
  else 0

end NanosleepCall

/-! ## os_task.c -/

/-- `sleep_time` as `pos_task_sleep_ms` sets it. -/
def sleepTime (ms : UInt32) : Timespec where
  tvSec := (ms / 1000).toNat
  tvNsec := (ms % 1000 * 1000000).toNat

/-- Where it is `__APPLE__`, a `pos_time_t` has 64 bits. -/
def Apple.sleepTime (ms : UInt64) : Timespec where
  tvSec := (ms / 1000).toNat
  tvNsec := (ms % 1000 * 1000000).toNat

/-- `sleep_time`, and whether the loop goes on. -/
structure SleepState where
  sleepTime : Timespec
  looping : Bool
  deriving DecidableEq

/-- One evaluation of the loop's condition, and its body: `sleep_time = remaining`. -/
def SleepState.round (s : SleepState) (call : NanosleepCall) : SleepState :=
  if call.interrupted then { s with sleepTime := call.remaining } else { s with looping := false }

/-- The loop, from some `sleep_time` on. -/
def sleepLoop (start : Timespec) : TransitionSystem SleepState NanosleepCall where
  init s := s = { sleepTime := start, looping := true }
  step s call s' := s.looping = true ∧ call.request = s.sleepTime ∧ s' = s.round call

/-- `pos_task_sleep_ms`. -/
def posTaskSleepMs (ms : UInt32) : TransitionSystem SleepState NanosleepCall :=
  sleepLoop (sleepTime ms)

def Apple.posTaskSleepMs (ms : UInt64) : TransitionSystem SleepState NanosleepCall :=
  sleepLoop (Apple.sleepTime ms)

/-- `pos_task_sleep`, where it is not `__APPLE__`. -/
def posTaskSleep (ticks : UInt32) : Option (TransitionSystem SleepState NanosleepCall) :=
  (posTimeTicksToMs ticks).map posTaskSleepMs

/-- A tick is a millisecond. -/
theorem posTaskSleep_eq (ticks : UInt32) : posTaskSleep ticks = some (posTaskSleepMs ticks) := by
  rw [posTaskSleep, posTimeTicksToMs_eq]
  rfl

/-! ## The first request -/

theorem sleepable_sleepTime (ms : UInt32) : (sleepTime ms).Sleepable := by
  simp only [sleepTime, Timespec.Sleepable, Timespec.Valid, Timespec.toNat_mod_mul]
  omega

theorem toNs_sleepTime (ms : UInt32) : (sleepTime ms).toNs = ms.toNat * 1000000 := by
  simp only [Timespec.toNs, sleepTime, Timespec.toNat_mod_mul, Timespec.toNat_div_thousand]
  omega

/-- The width of a `pos_time_t` makes no difference. -/
theorem Apple.sleepTime_eq (ms : UInt32) : Apple.sleepTime ms.toUInt64 = Posix.sleepTime ms := by
  have hlt := ms.toNat_lt
  have hdiv : (ms.toUInt64 / 1000).toNat = ms.toNat / 1000 := UInt64.toNat_div _ 1000
  have hmod : (ms.toUInt64 % 1000 * 1000000).toNat = ms.toNat % 1000 * 1000000 := by
    rw [UInt64.toNat_mul, UInt64.toNat_mod, UInt32.toNat_toUInt64]
    show ms.toNat % 1000 * 1000000 % 2 ^ 64 = _
    omega
  rw [Apple.sleepTime, Posix.sleepTime, hdiv, hmod, Timespec.toNat_mod_mul,
    Timespec.toNat_div_thousand]

/-! ## Rounds -/

variable {start : Timespec} {s s' : SleepState} {call : NanosleepCall}
  {calls : List NanosleepCall}

/-- What remains of a request can be asked for again. -/
theorem sleepable_of_nonneg {ts : Timespec} (hvalid : ts.Valid) (hnonneg : 0 ≤ ts.toNs) :
    ts.Sleepable := by
  obtain ⟨hlow, hhigh⟩ := hvalid
  refine ⟨?_, hlow, hhigh⟩
  unfold Timespec.toNs at hnonneg
  omega

/-- The state of the loop, as a sleeper's. -/
def Sleeps (s : SleepState) (t : Spec.Sleeper ℚ) : Prop :=
  match s.looping with
  | true => s.sleepTime.Sleepable ∧ t = .asleep s.sleepTime.toNs
  | false => t = .awake

/-- A call, as a round. -/
def NanosleepCall.toRound (call : NanosleepCall) : Spec.SleepRound ℚ := ⟨call.told, call.slept⟩

/-- **A round of the loop is a round of a sleep**: what is left to sleep is what is left of the
request, and the loop ends with nothing left. -/
theorem round_sleeps {t : Spec.Sleeper ℚ} (hR : Sleeps s t) (hdoc : call.Documented)
    (hstep : (sleepLoop start).step s call s') :
    ∃ t', Spec.SleepStep t call.toRound t' ∧ Sleeps s' t' := by
  obtain ⟨hlooping, hrequest, rfl⟩ := hstep
  rw [Sleeps, hlooping] at hR
  obtain ⟨hsleepable, rfl⟩ := hR
  rw [← hrequest] at hsleepable ⊢
  cases hdoc with
  | whole _ hslept => exact ⟨.awake, .whole hslept, rfl⟩
  | @interrupted request remaining slept _ hremaining hnonneg hle hslept =>
    -- what the call reports, and what that leaves of the request
    have htold : NanosleepCall.told ⟨request, -1, EINTR, remaining, slept⟩ =
        ((request.toNs - remaining.toNs : ℤ) : ℚ) := by
      push_cast
      rfl
    have hleft : (request.toNs : ℚ) - ((request.toNs - remaining.toNs : ℤ) : ℚ) =
        remaining.toNs := by
      push_cast
      exact sub_sub_cancel _ _
    refine ⟨.asleep remaining.toNs, ?_, ?_⟩
    · rw [NanosleepCall.toRound, htold, ← hleft]
      refine .interrupted ?_ ?_ hslept
      · exact_mod_cast sub_nonneg.mpr hle
      · exact_mod_cast sub_le_self _ hnonneg
    · -- the next request is what the kernel has written back
      have hround : s.round ⟨request, -1, EINTR, remaining, slept⟩ =
          { s with sleepTime := remaining } := rfl
      rw [hround, Sleeps, hlooping]
      exact ⟨sleepable_of_nonneg hremaining hnonneg, rfl⟩
  | refused hrefused => exact absurd hsleepable hrefused

theorem sleepLoop_simulates (hstart : start.Sleepable) :
    Simulation (sleepLoop start) (fun _ call => call.Documented) (Spec.sleep (start.toNs : ℚ))
      (fun call => some call.toRound) Sleeps where
  init s hinit := by
    rw [hinit]
    exact ⟨_, rfl, hstart, rfl⟩
  hidden _ _ _ _ _ _ _ hnone := by cases hnone
  visible _ _ _ _ round hR hdoc hstep hround := by
    cases hround
    exact round_sleeps hR hdoc hstep

/-- A run of the loop is a run of a sleep. -/
theorem exists_sleep_run (hstart : start.Sleepable)
    (hrun : (sleepLoop start).Run (fun _ call => call.Documented) calls s) :
    ∃ t, (Spec.sleep (start.toNs : ℚ)).Run (fun _ _ => True)
      (calls.map NanosleepCall.toRound) t ∧ Sleeps s t := by
  obtain ⟨t, hsleep, hR⟩ := (sleepLoop_simulates hstart).run hrun
  rw [List.filterMap_eq_map'] at hsleep
  exact ⟨t, hsleep, hR⟩

/-! ## Whole runs -/

theorem Sleeps.sleepable {t : Spec.Sleeper ℚ} (hR : Sleeps s t) (hlooping : s.looping = true) :
    s.sleepTime.Sleepable := by
  rw [Sleeps, hlooping] at hR
  exact hR.1

/-- **No request is refused.** -/
theorem request_sleepable (hstart : start.Sleepable)
    (hrun : (sleepLoop start).Run (fun _ call => call.Documented) calls s) :
    ∀ call ∈ calls, call.request.Sleepable := by
  induction hrun with
  | start hinit => exact fun call hmem => absurd hmem List.not_mem_nil
  | @step calls s s' call hrun hdoc hstep ih =>
    obtain ⟨hlooping, hrequest, -⟩ := hstep
    obtain ⟨t, -, hR⟩ := exists_sleep_run hstart hrun
    rw [List.forall_mem_append]
    refine ⟨ih, ?_⟩
    rw [List.forall_mem_singleton, hrequest]
    exact hR.sleepable hlooping

/-- A call that no signal interrupts is the last one. -/
theorem ends_uninterrupted (hstart : start.Sleepable)
    (hrun : (sleepLoop start).Run (fun _ call => call.Documented) calls s)
    (hlooping : s.looping = true) :
    ∃ call s', call.Documented ∧ (sleepLoop start).step s call s' ∧ s'.looping = false := by
  obtain ⟨t, -, hR⟩ := exists_sleep_run hstart hrun
  let call : NanosleepCall := ⟨s.sleepTime, 0, .success, ⟨0, 0⟩, s.sleepTime.toNs⟩
  refine ⟨call, s.round call, .whole (hR.sleepable hlooping) le_rfl, ⟨hlooping, rfl, rfl⟩, ?_⟩
  rfl

/-- The nanoseconds of `ms` milliseconds that no call has reported yet. -/
def outstanding (ms : UInt32) (calls : List NanosleepCall) : ℚ :=
  ms.toNat * 1000000 - (calls.map NanosleepCall.told).sum

/-- **A task sleeps at least as long as it was asked to**, however often signals interrupt it:
each request is valid, and the next one is what is outstanding; the loop is left only when
nothing is, and then the task has slept for `ms` milliseconds, and no longer if no call has slept
longer than it reports. -/
theorem sleeps_ms {ms : UInt32}
    (hrun : (posTaskSleepMs ms).Run (fun _ call => call.Documented) calls s ∨
      (Apple.posTaskSleepMs ms.toUInt64).Run (fun _ call => call.Documented) calls s) :
    (∀ call ∈ calls, call.request.Valid) ∧
      (s.looping = true → s.sleepTime.Valid ∧ s.sleepTime.toNs = outstanding ms calls) ∧
      (s.looping = false → outstanding ms calls = 0 ∧
        ms.toNat * 1000000 ≤ (calls.map NanosleepCall.slept).sum ∧
        ((∀ call ∈ calls, call.slept = call.told) →
          (calls.map NanosleepCall.slept).sum = ms.toNat * 1000000)) := by
  -- both ports run the same loop, from the same request
  have hrun : (sleepLoop (sleepTime ms)).Run (fun _ call => call.Documented) calls s := by
    rcases hrun with hrun | hrun
    · exact hrun
    · rwa [Apple.posTaskSleepMs, Apple.sleepTime_eq] at hrun
  have hstart := sleepable_sleepTime ms
  have htotal : ((sleepTime ms).toNs : ℚ) = ms.toNat * 1000000 := by
    exact_mod_cast toNs_sleepTime ms
  obtain ⟨t, hsleep, hR⟩ := exists_sleep_run hstart hrun
  -- what has been told and what is left make up the request
  have htold := Spec.told_add_outstanding hsleep
  rw [List.map_map, htotal] at htold
  refine ⟨fun call hmem => (request_sleepable hstart hrun call hmem).2, ?_, ?_⟩
  · intro hlooping
    rw [Sleeps, hlooping] at hR
    obtain ⟨hsleepable, rfl⟩ := hR
    exact ⟨hsleepable.2, eq_sub_of_add_eq' htold⟩
  · intro hlooping
    rw [Sleeps, hlooping] at hR
    obtain rfl := hR
    -- the loop has been left, so the sleeper is awake
    have htold := Spec.told_of_awake hsleep
    have hslept := Spec.le_slept_of_awake hsleep
    rw [List.map_map, htotal] at htold hslept
    refine ⟨?_, hslept, ?_⟩
    · exact sub_eq_zero.mpr htold.symm
    · intro hexact
      have hrounds : ∀ round ∈ calls.map NanosleepCall.toRound, round.slept = round.told := by
        rw [List.forall_mem_map]
        exact hexact
      have heq := Spec.slept_eq_of_awake hsleep hrounds
      rwa [List.map_map, htotal] at heq

/-- A signal after 1.7 of 2.5 seconds, another one 0.3 seconds later, and a nanosecond too
much. -/
theorem sleeps_ms_interrupted :
    ∃ calls s, calls.length = 3 ∧ s.looping = false ∧
      (posTaskSleepMs 2500).Run (fun _ call => call.Documented) calls s ∧
      outstanding 2500 calls = 0 ∧
      2500 * 1000000 ≤ (calls.map NanosleepCall.slept).sum := by
  have h0 : (posTaskSleepMs 2500).Run (fun _ call => call.Documented) []
      { sleepTime := ⟨2, 500000000⟩, looping := true } := .start rfl
  have h1 := h0.next ⟨⟨2, 500000000⟩, -1, EINTR, ⟨0, 800000000⟩, 1700000000⟩
    (.interrupted (by decide) (by decide) (by decide) (by decide) (by decide)) ⟨rfl, rfl, rfl⟩
  have h2 := h1.next ⟨⟨0, 800000000⟩, -1, EINTR, ⟨0, 500000000⟩, 300000000⟩
    (.interrupted (by decide) (by decide) (by decide) (by decide) (by decide)) ⟨rfl, rfl, rfl⟩
  have h3 := h2.next ⟨⟨0, 500000000⟩, 0, .success, ⟨0, 500000000⟩, 500000001⟩
    (.whole (by decide) (by decide)) ⟨rfl, rfl, rfl⟩
  obtain ⟨-, -, hends⟩ := sleeps_ms (.inl h3)
  obtain ⟨houtstanding, hslept, -⟩ := hends rfl
  exact ⟨_, _, rfl, rfl, h3, houtstanding, hslept⟩

end Poski.Posix
