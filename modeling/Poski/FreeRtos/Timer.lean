import Mathlib.Logic.Function.Basic
import Poski.Lib.Population
import Poski.Lib.TransitionSystem
import Poski.Osal.Types

/-!
# Restarting a FreeRTOS Timer

`os_timer.c` of the FreeRTOS port. A timer is controlled by commands, which are appended to
one queue and applied by the timer task, between callbacks only. `pos_timer_start` is three
commands. A timer that expires calls `pos_timer_cb`, which sends a stop command before it
calls the user's function, although a one-shot timer is inactive by then.

- `lost_restart` : a start that is made between the expiry and that stop command
- `Inv` : a timer that was restarted is active once its commands are applied
- `active_of_restarted` : runs in which the callback's stop command comes first
- `inactive_of_callbackStop` : nothing less than that will do
-/

namespace Poski.FreeRtos

open Lib

universe u

/-! ## Commands -/

/-- What `xTimerStop`, `xTimerChangePeriod` and `xTimerReset`, and the same from an ISR,
send to the timer task. -/
inductive Command where
  | stop
  | changePeriod (ticks : UInt32)
  | reset
  deriving DecidableEq, Repr

/-- A timer of the kernel. -/
structure KTimer where
  active : Bool
  period : UInt32
  deriving DecidableEq, Repr

/-- What the timer task does with a command. A new period starts the timer, too. -/
def Command.apply : Command → KTimer → KTimer
  | .stop, timer => { timer with active := false }
  | .changePeriod ticks, _ => { active := true, period := ticks }
  | .reset, timer => { timer with active := true }

/-- The timer when all its commands have been applied. -/
def drain (timer : KTimer) (queue : List Command) : KTimer :=
  queue.foldl (fun timer command => command.apply timer) timer

@[simp] theorem drain_cons (timer : KTimer) (command : Command) (queue : List Command) :
    drain timer (command :: queue) = drain (command.apply timer) queue := rfl

@[simp] theorem drain_append (timer : KTimer) (queue : List Command) (command : Command) :
    drain timer (queue ++ [command]) = command.apply (drain timer queue) := by
  simp [drain]

/-- `pos_timer_start`: the commands it sends, one after the other, and what it returns. -/
def posTimerStart (ticks : UInt32) : List Command × PosError :=
  let ticks := if ticks = 0 then 1 else ticks
  ([.stop, .changePeriod ticks, .reset], .ok)

/-- `pos_timer_stop`. -/
def posTimerStop : List Command := [.stop]

/-! ## The machine -/

namespace Timer

/-- Who calls `pos_timer_start` and `pos_timer_stop`: a task or an interrupt, or the user's
function, run by the timer task. -/
inductive Context (ι : Type u) where
  | outside (i : ι)
  | userFunc
  deriving DecidableEq

/-- Where the timer task stands in `pos_timer_cb`. -/
inductive Phase where
  | idle
  | entered
  | func
  deriving DecidableEq, Repr

/-- Where a context stands in `pos_timer_start`: which commands it has yet to send, what it
is going to return, and the number of expiries and stops at its call. -/
inductive Pc where
  | idle
  | sending (todo : List Command) (err : PosError) (called : ℕ)
  deriving DecidableEq, Repr

/-- What can happen in a step. -/
inductive Act (ι : Type u) where
  | callStart (c : Context ι) (ticks : UInt32)
  | send (c : Context ι)
  | return (c : Context ι) (err : PosError)
  | stop (c : Context ι)
  | expire
  | callbackStop
  | callbackReturn
  | apply

/-- One timer, the command queue and the contexts that use the timer. For the statement of
the results, the state remembers how many expiries, and stops by the application, there have
been, and what is known of the start that was the last one to return. -/
structure State (ι : Type u) where
  timer : KTimer
  queue : List Command
  phase : Phase
  pc : Context ι → Pc
  events : ℕ
  lastStart : Option (PosError × ℕ)

/-- The user's function makes calls only while it runs. -/
def State.Runs {ι : Type u} (s : State ι) : Context ι → Prop
  | .outside _ => True
  | .userFunc => s.phase = .func

variable {ι : Type u} [DecidableEq ι]

/-- Context `c` goes to `p`. -/
def State.goto (s : State ι) (c : Context ι) (p : Pc) : State ι :=
  { s with pc := Function.update s.pc c p }

/-- One step. A command is sent and applied as a whole. -/
inductive Step : State ι → Act ι → State ι → Prop where
  | callStart {s : State ι} {c : Context ι} {ticks : UInt32} (hpc : s.pc c = .idle)
      (hruns : s.Runs c) :
      Step s (.callStart c ticks)
        (s.goto c (.sending (posTimerStart ticks).1 (posTimerStart ticks).2 s.events))
  | send {s : State ι} {c : Context ι} {command : Command} {todo : List Command}
      {err : PosError} {called : ℕ} (hpc : s.pc c = .sending (command :: todo) err called) :
      Step s (.send c)
        ({ s with queue := s.queue ++ [command] }.goto c (.sending todo err called))
  | return {s : State ι} {c : Context ι} {err : PosError} {called : ℕ}
      (hpc : s.pc c = .sending [] err called) :
      Step s (.return c err) ({ s with lastStart := some (err, called) }.goto c .idle)
  -- `pos_timer_stop(timer)` by the application
  | stop {s : State ι} {c : Context ι} (hpc : s.pc c = .idle) (hruns : s.Runs c) :
      Step s (.stop c) { s with queue := s.queue ++ posTimerStop, events := s.events + 1 }
  -- a one-shot timer is inactive when its callback is called
  | expire {s : State ι} (hactive : s.timer.active = true) (hphase : s.phase = .idle) :
      Step s .expire { s with
        timer := { s.timer with active := false }
        phase := .entered
        events := s.events + 1 }
  -- `pos_timer_cb`: `pos_timer_stop(timer)`
  | callbackStop {s : State ι} (hphase : s.phase = .entered) :
      Step s .callbackStop { s with queue := s.queue ++ posTimerStop, phase := .func }
  -- `timer->func(timer->arg)` returns
  | callbackReturn {s : State ι} (hphase : s.phase = .func) (hpc : s.pc .userFunc = .idle) :
      Step s .callbackReturn { s with phase := .idle }
  | apply {s : State ι} {command : Command} {queue : List Command}
      (hqueue : s.queue = command :: queue) (hphase : s.phase = .idle) :
      Step s .apply { s with timer := command.apply s.timer, queue := queue }

/-- An initialised timer that nobody has used yet. -/
def timer (ι : Type u) [DecidableEq ι] : TransitionSystem (State ι) (Act ι) where
  init s := s.timer = { active := false, period := 1 } ∧ s.queue = [] ∧ s.phase = .idle ∧
    (∀ c, s.pc c = .idle) ∧ s.events = 0 ∧ s.lastStart = none
  step := Step

/-! ## The defect -/

/-- An interrupt starts the timer after it has expired, and before the callback has sent its
stop command. -/
theorem lost_restart :
    ¬∀ s : State Unit, (timer Unit).Reachable s → s.queue = [] → s.phase = .idle →
      (∀ c, s.pc c = .idle) → s.lastStart = some (.ok, s.events) → s.timer.active = true := by
  intro halways
  have h0 : (timer Unit).Run (fun _ _ => True) []
      { timer := ⟨false, 1⟩, queue := [], phase := .idle, pc := fun _ => .idle, events := 0,
        lastStart := none } :=
    .start ⟨rfl, rfl, rfl, fun _ => rfl, rfl, rfl⟩
  have h1 := h0.next (.callStart (.outside ()) 5) trivial (.callStart rfl trivial)
  have h2 := h1.next (.send (.outside ())) trivial (.send rfl)
  have h3 := h2.next (.send (.outside ())) trivial (.send rfl)
  have h4 := h3.next (.send (.outside ())) trivial (.send rfl)
  have h5 := h4.next (.return (.outside ()) .ok) trivial (.return rfl)
  have h6 := h5.next .apply trivial (.apply rfl rfl)
  have h7 := h6.next .apply trivial (.apply rfl rfl)
  have h8 := h7.next .apply trivial (.apply rfl rfl)
  -- the timer expires, and an interrupt starts it before the callback goes on
  have h9 := h8.next .expire trivial (.expire rfl rfl)
  have h10 := h9.next (.callStart (.outside ()) 5) trivial (.callStart rfl trivial)
  have h11 := h10.next (.send (.outside ())) trivial (.send rfl)
  have h12 := h11.next (.send (.outside ())) trivial (.send rfl)
  have h13 := h12.next (.send (.outside ())) trivial (.send rfl)
  have h14 := h13.next (.return (.outside ()) .ok) trivial (.return rfl)
  -- the callback's stop command comes behind the commands of that start
  have h15 := h14.next .callbackStop trivial (.callbackStop rfl)
  have h16 := h15.next .callbackReturn trivial (.callbackReturn rfl rfl)
  have h17 := h16.next .apply trivial (.apply rfl rfl)
  have h18 := h17.next .apply trivial (.apply rfl rfl)
  have h19 := h18.next .apply trivial (.apply rfl rfl)
  have h20 := h19.next .apply trivial (.apply rfl rfl)
  have hactive := halways _ ⟨_, h20⟩ rfl rfl (fun c => by cases c <;> rfl) rfl
  cases hactive

/-! ## Where restarts take effect -/

/-- The last start to return can be one that was called after the last expiry and the last
stop: such a one has sent all its commands and has yet to return, or was the last one to
return, and no other has sent all its commands. -/
def State.Restarted (s : State ι) : Prop :=
  (∃ c, s.pc c = .sending [] .ok s.events) ∨
    s.lastStart = some (.ok, s.events) ∧ ∀ c err called, s.pc c ≠ .sending [] err called

/-- A start has yet to send commands. -/
def State.Restarting (s : State ι) : Prop :=
  ∃ c command todo err called, s.pc c = .sending (command :: todo) err called

/-- The callback sends its stop command only before a start that was called after the expiry
and returns last has sent its last command, or while any start has yet to send its last one. -/
def CallbackStopsFirst (s : State ι) : Act ι → Prop
  | .callbackStop => ¬s.Restarted ∨ s.Restarting
  | _ => True

/-- What is known of a context: a start sends a reset last, and no later number of expiries
and stops was known at its call. -/
def Pc.Consistent (events : ℕ) : Pc → Prop
  | .idle => True
  | .sending todo _ called => (todo ≠ [] → todo.getLast? = some .reset) ∧ called ≤ events

/-- The invariant: a timer that was restarted is going to be active. -/
structure Inv (s : State ι) : Prop where
  consistent : ∀ c, (s.pc c).Consistent s.events
  last_le : ∀ err called, s.lastStart = some (err, called) → called ≤ s.events
  restarted : s.Restarted → (drain s.timer s.queue).active = true ∨ s.Restarting

variable {s s' : State ι} {a : Act ι}

theorem Pc.Consistent.mono {p : Pc} {m n : ℕ} (h : p.Consistent m) (hmn : m ≤ n) :
    p.Consistent n := by
  cases p with
  | idle => trivial
  | sending todo err called => exact ⟨h.1, Nat.le_trans h.2 hmn⟩

/-- What holds of all contexts is kept if it holds of the place that one of them goes to. -/
theorem forall_goto {P : Pc → Prop} {c : Context ι} {p : Pc} (hothers : ∀ d, P (s.pc d))
    (hnew : P p) : ∀ d, P ((s.goto c p).pc d) :=
  (Function.forall_update_iff s.pc fun _ p => P p).mpr ⟨hnew, fun d _ => hothers d⟩

/-- A context that has returned leaves the others sending. -/
theorem restarting_goto {c : Context ι} {p : Pc} {err : PosError} {called : ℕ}
    (hrestarting : s.Restarting) (hpc : s.pc c = .sending [] err called) :
    (s.goto c p).Restarting := by
  obtain ⟨d, command, todo, err', called', hd⟩ := hrestarting
  have hne : d ≠ c := by
    rintro rfl
    rw [hpc] at hd
    cases hd
  exact ⟨d, command, todo, err', called', by simpa [State.goto, Function.update_of_ne hne] using hd⟩

omit [DecidableEq ι] in
/-- Nobody is in `pos_timer_start`, and the last one to return is an old one. -/
theorem not_restarted_of_idle (hidle : ∀ c, s.pc c = .idle)
    (hlast : s.lastStart ≠ some (.ok, s.events)) : ¬s.Restarted := by
  rintro (⟨c, hstart⟩ | ⟨hstart, -⟩)
  · rw [hidle c] at hstart
    cases hstart
  · exact hlast hstart

omit [DecidableEq ι] in
/-- After one more expiry or stop, nobody has restarted the timer yet. -/
theorem Inv.not_restarted (hinv : Inv s) (hevents : s'.events = s.events + 1)
    (hpc : s'.pc = s.pc) (hlast : s'.lastStart = s.lastStart) : ¬s'.Restarted := by
  rintro (⟨c, hstart⟩ | ⟨hstart, -⟩)
  · have hconsistent := hinv.consistent c
    rw [← hpc, hstart] at hconsistent
    have hle : s'.events ≤ s.events := hconsistent.2
    omega
  · have hle := hinv.last_le _ _ (hlast ▸ hstart)
    omega

theorem Inv.start (hinit : (timer ι).init s) : Inv s := by
  obtain ⟨-, -, -, hidle, -, hlast⟩ := hinit
  refine ⟨fun c => ?_, by simp [hlast], fun hrestarted => ?_⟩
  · rw [hidle c]
    trivial
  · exact absurd hrestarted (not_restarted_of_idle hidle (by simp [hlast]))

theorem Inv.send (hinv : Inv s) {c : Context ι} {command : Command} {todo : List Command}
    {err : PosError} {called : ℕ} (hpc : s.pc c = .sending (command :: todo) err called) :
    Inv ({ s with queue := s.queue ++ [command] }.goto c (.sending todo err called)) := by
  have hconsistent := hinv.consistent c
  rw [hpc] at hconsistent
  obtain ⟨hlast, hle⟩ := hconsistent
  specialize hlast (by simp)
  cases todo with
  | nil =>
    -- the reset has been sent, and it is the last command in the queue
    have hreset : command = .reset := by simpa using hlast
    refine ⟨forall_goto hinv.consistent ⟨by simp, hle⟩, hinv.last_le, fun _ => .inl ?_⟩
    simp [State.goto, hreset, Command.apply]
  | cons next todo =>
    have hlast' : (next :: todo).getLast? = some .reset := by simpa using hlast
    refine ⟨forall_goto hinv.consistent ⟨fun _ => hlast', hle⟩, hinv.last_le, fun _ => .inr ?_⟩
    exact ⟨c, next, todo, err, called, by simp [State.goto]⟩

theorem Inv.return (hinv : Inv s) {c : Context ι} {err : PosError} {called : ℕ}
    (hpc : s.pc c = .sending [] err called) :
    Inv ({ s with lastStart := some (err, called) }.goto c .idle) := by
  have hconsistent := hinv.consistent c
  rw [hpc] at hconsistent
  refine ⟨forall_goto hinv.consistent trivial, ?_, fun hrestarted => ?_⟩
  · intro err' called' hlast
    cases hlast
    exact hconsistent.2
  · -- it was the start that returns now, or is another one that has not returned yet
    have hbefore : s.Restarted := by
      rcases hrestarted with ⟨d, hd⟩ | ⟨hlast, -⟩
      · rcases eq_or_ne d c with rfl | hne
        · simp [State.goto] at hd
        · exact .inl ⟨d, by simpa [State.goto, Function.update_of_ne hne] using hd⟩
      · obtain ⟨herr, hcalled⟩ := Prod.mk.inj (Option.some_inj.mp hlast)
        exact .inl ⟨c, by rw [hpc, herr, hcalled]; rfl⟩
    exact (hinv.restarted hbefore).imp_right fun hrestarting => restarting_goto hrestarting hpc

theorem Inv.step (hinv : Inv s) (hcond : CallbackStopsFirst s a) (h : Step s a s') :
    Inv s' := by
  cases h with
  | @callStart c ticks hpc hruns =>
    refine ⟨forall_goto hinv.consistent ⟨fun _ => rfl, Nat.le_refl _⟩, hinv.last_le,
      fun _ => .inr ?_⟩
    exact ⟨c, .stop, _, _, _, by simp only [State.goto, Function.update_self]; rfl⟩
  | send hpc => exact hinv.send hpc
  | «return» hpc => exact hinv.return hpc
  | stop hpc hruns =>
    refine ⟨fun c => (hinv.consistent c).mono (Nat.le_succ _), fun err called hlast => ?_,
      fun hrestarted => absurd hrestarted (hinv.not_restarted rfl rfl rfl)⟩
    exact Nat.le_succ_of_le (hinv.last_le err called hlast)
  | expire hactive hphase =>
    refine ⟨fun c => (hinv.consistent c).mono (Nat.le_succ _), fun err called hlast => ?_,
      fun hrestarted => absurd hrestarted (hinv.not_restarted rfl rfl rfl)⟩
    exact Nat.le_succ_of_le (hinv.last_le err called hlast)
  -- the stop command is the last one sent, but some start has yet to send commands behind it
  | callbackStop hphase =>
    refine ⟨hinv.consistent, hinv.last_le, fun hrestarted => .inr ?_⟩
    exact hcond.resolve_left (not_not.mpr hrestarted)
  | callbackReturn hphase hpc => exact ⟨hinv.consistent, hinv.last_le, hinv.restarted⟩
  | apply hqueue hphase =>
    refine ⟨hinv.consistent, hinv.last_le, fun hrestarted => ?_⟩
    have hdrain := hinv.restarted hrestarted
    rw [hqueue, drain_cons] at hdrain
    exact hdrain

/-- **A restarted timer is active** in every run in which the callback's stop command comes
first: once all commands have been applied and no call is in progress, the timer is active if
the last start that returned was called after the last expiry and the last stop. -/
theorem active_of_restarted (hreach : (timer ι).ReachableWhen CallbackStopsFirst s)
    (hqueue : s.queue = []) (hidle : ∀ c, s.pc c = .idle)
    (hlast : s.lastStart = some (.ok, s.events)) : s.timer.active = true := by
  have hinv : Inv s :=
    hreach.invariant (fun _ => Inv.start) fun _ _ _ hinv hcond hstep => hinv.step hcond hstep
  have hrestarted : s.Restarted := .inr ⟨hlast, by simp [hidle]⟩
  rcases hinv.restarted hrestarted with hactive | ⟨c, command, todo, err, called, hpc⟩
  · rw [hqueue] at hactive
    exact hactive
  · rw [hidle c] at hpc
    cases hpc

/-- The timer is started, and when it expires the user's function starts it again. -/
theorem active_of_restarted_again :
    ∃ s : State Unit, s.events = 1 ∧ s.timer.active = true := by
  have h0 : (timer Unit).Run CallbackStopsFirst []
      { timer := ⟨false, 1⟩, queue := [], phase := .idle, pc := fun _ => .idle, events := 0,
        lastStart := none } :=
    .start ⟨rfl, rfl, rfl, fun _ => rfl, rfl, rfl⟩
  have h1 := h0.next (.callStart (.outside ()) 5) trivial (.callStart rfl trivial)
  have h2 := h1.next (.send (.outside ())) trivial (.send rfl)
  have h3 := h2.next (.send (.outside ())) trivial (.send rfl)
  have h4 := h3.next (.send (.outside ())) trivial (.send rfl)
  have h5 := h4.next (.return (.outside ()) .ok) trivial (.return rfl)
  have h6 := h5.next .apply trivial (.apply rfl rfl)
  have h7 := h6.next .apply trivial (.apply rfl rfl)
  have h8 := h7.next .apply trivial (.apply rfl rfl)
  have h9 := h8.next .expire trivial (.expire rfl rfl)
  have h10 := h9.next .callbackStop
    (.inl (not_restarted_of_idle (fun c => by cases c <;> rfl) (by simp [State.goto])))
    (.callbackStop rfl)
  -- the user's function is called behind the stop command
  have h11 := h10.next (.callStart .userFunc 5) trivial (.callStart rfl rfl)
  have h12 := h11.next (.send .userFunc) trivial (.send rfl)
  have h13 := h12.next (.send .userFunc) trivial (.send rfl)
  have h14 := h13.next (.send .userFunc) trivial (.send rfl)
  have h15 := h14.next (.return .userFunc .ok) trivial (.return rfl)
  have h16 := h15.next .callbackReturn trivial (.callbackReturn rfl rfl)
  have h17 := h16.next .apply trivial (.apply rfl rfl)
  have h18 := h17.next .apply trivial (.apply rfl rfl)
  have h19 := h18.next .apply trivial (.apply rfl rfl)
  have h20 := h19.next .apply trivial (.apply rfl rfl)
  exact ⟨_, rfl, active_of_restarted ⟨_, h20⟩ rfl (fun c => by cases c <;> rfl) rfl⟩

/-! ## The condition is exact -/

/-- The context is in `pos_timer_start`. -/
def Pc.busy : Pc → Bool
  | .idle => false
  | .sending _ _ _ => true

/-- The timer was restarted, all commands of all starts have been sent, and the timer is
going to be inactive. Only contexts of `F` are in `pos_timer_start`. -/
structure Lost (F : Finset (Context ι)) (s : State ι) : Prop where
  inactive : (drain s.timer s.queue).active = false
  sent : ¬s.Restarting
  restarted : s.Restarted
  stopped : s.phase ≠ .entered
  idle : ∀ c, c ∉ F → s.pc c = .idle

/-- How many steps the callback has yet to make. -/
def Phase.toReturn : Phase → ℕ
  | .idle => 0
  | .entered => 2
  | .func => 1

/-- How much there is to do until no call is in progress and all commands are applied. -/
def State.toQuiet (s : State ι) (F : Finset (Context ι)) : ℕ :=
  ∑ c ∈ F, (s.pc c).busy.toNat + s.phase.toReturn + s.queue.length

variable {F : Finset (Context ι)}

/-- At any time only finitely many contexts are in `pos_timer_start`. -/
theorem finite_busy (hreach : (timer ι).Reachable s) : (members Pc.busy s.pc).Finite := by
  refine hreach.invariant (I := fun s => (members Pc.busy s.pc).Finite) ?_ ?_
  · intro s hinit
    obtain ⟨-, -, -, hidle, -, -⟩ := hinit
    simp [members, hidle, Pc.busy]
  · intro s a s' hfin _ hstep
    cases hstep with
    | callStart _ _ => exact finite_members_update hfin _ _
    | send _ => exact finite_members_update hfin _ _
    | «return» _ => exact finite_members_update hfin _ _
    | _ => exact hfin

omit [DecidableEq ι] in
/-- A context is idle, or has sent all its commands. -/
theorem Lost.idle_or (hlost : Lost F s) (c : Context ι) :
    s.pc c = .idle ∨ ∃ err called, s.pc c = .sending [] err called := by
  cases hpc : s.pc c with
  | idle => exact .inl rfl
  | sending todo err called =>
    cases todo with
    | nil => exact .inr ⟨err, called, rfl⟩
    | cons command todo => exact absurd ⟨c, command, todo, err, called, hpc⟩ hlost.sent

theorem Lost.return (hlost : Lost F s) {c : Context ι} {err : PosError} {called : ℕ}
    (hpc : s.pc c = .sending [] err called)
    (hrestarted : ({ s with lastStart := some (err, called) }.goto c .idle).Restarted) :
    Lost F ({ s with lastStart := some (err, called) }.goto c .idle) ∧
      ({ s with lastStart := some (err, called) }.goto c .idle).toQuiet F < s.toQuiet F := by
  have hmem : c ∈ F := by
    by_contra hnot
    rw [hlost.idle c hnot] at hpc
    cases hpc
  refine ⟨⟨hlost.inactive, fun hrestarting => ?_, hrestarted, hlost.stopped, fun d hd => ?_⟩, ?_⟩
  · obtain ⟨d, command, todo, err', called', hd⟩ := hrestarting
    rcases eq_or_ne d c with rfl | hne
    · simp [State.goto] at hd
    · refine hlost.sent ⟨d, command, todo, err', called', ?_⟩
      simpa [State.goto, Function.update_of_ne hne] using hd
  · have hne : d ≠ c := fun heq => hd (heq ▸ hmem)
    simpa [State.goto, Function.update_of_ne hne] using hlost.idle d hd
  · have hlt : (Pc.idle.busy).toNat < (s.pc c).busy.toNat := by simp [hpc, Pc.busy]
    have hsum := sum_rank_update_lt (fun p : Pc => p.busy.toNat) hmem hlt
    simp only [State.toQuiet, State.goto]
    omega

/-- The starts that are in progress can return, those that were called before the last expiry
or stop first. -/
theorem Lost.exists_return (hlost : Lost F s) (hbusy : ¬∀ c, s.pc c = .idle) :
    ∃ s', (∃ a, Step s a s') ∧ Lost F s' ∧ s'.toQuiet F < s.toQuiet F := by
  by_cases hearly : ∃ c err called, s.pc c = .sending [] err called ∧
      (err, called) ≠ (.ok, s.events)
  · -- a start that failed or was called too early returns before the one that counts
    obtain ⟨c, err, called, hpc, hne⟩ := hearly
    rcases hlost.restarted with ⟨d, hd⟩ | ⟨-, hnone⟩
    · have hdc : d ≠ c := by
        rintro rfl
        rw [hpc] at hd
        cases hd
        exact hne rfl
      refine ⟨_, ⟨_, .return hpc⟩, hlost.return hpc (.inl ⟨d, ?_⟩)⟩
      simpa [State.goto, Function.update_of_ne hdc] using hd
    · exact absurd hpc (hnone c err called)
  · -- every start in progress was called after the last expiry and the last stop
    have hlate : ∀ c, s.pc c = .idle ∨ s.pc c = .sending [] .ok s.events := by
      intro c
      refine (hlost.idle_or c).imp_right fun ⟨err, called, hpc⟩ => ?_
      by_contra hne
      exact hearly ⟨c, err, called, hpc, fun heq => hne (by cases heq; exact hpc)⟩
    obtain ⟨c, hc⟩ := not_forall.mp hbusy
    have hpc := (hlate c).resolve_left hc
    refine ⟨_, ⟨_, .return hpc⟩, hlost.return hpc ?_⟩
    -- this one returns last, or another one does
    by_cases hmore : ∃ d, d ≠ c ∧ s.pc d ≠ .idle
    · obtain ⟨d, hdc, hd⟩ := hmore
      refine .inl ⟨d, ?_⟩
      simpa [State.goto, Function.update_of_ne hdc] using (hlate d).resolve_left hd
    · refine .inr ⟨rfl, fun d err called hd => ?_⟩
      rcases eq_or_ne d c with rfl | hdc
      · simp [State.goto] at hd
      · refine hmore ⟨d, hdc, fun hidle => ?_⟩
        simp [State.goto, Function.update_of_ne hdc, hidle] at hd

/-- When no start is in progress, the callback can return and the commands can be applied. -/
theorem Lost.exists_apply (hlost : Lost F s) (hidle : ∀ c, s.pc c = .idle)
    (hbusy : s.phase ≠ .idle ∨ s.queue ≠ []) :
    ∃ s', (∃ a, Step s a s') ∧ Lost F s' ∧ s'.toQuiet F < s.toQuiet F := by
  cases hphase : s.phase with
  | entered => exact absurd hphase hlost.stopped
  | func =>
    refine ⟨_, ⟨_, .callbackReturn hphase (hidle _)⟩, ?_,
      by simp [State.toQuiet, Phase.toReturn, hphase]⟩
    exact ⟨hlost.inactive, hlost.sent, hlost.restarted, by simp, hlost.idle⟩
  | idle =>
    cases hqueue : s.queue with
    | nil => simp [hphase, hqueue] at hbusy
    | cons command queue =>
      refine ⟨_, ⟨_, .apply hqueue hphase⟩, ?_, by simp [State.toQuiet, hqueue]⟩
      have hinactive := hlost.inactive
      rw [hqueue, drain_cons] at hinactive
      exact ⟨hinactive, hlost.sent, hlost.restarted, hlost.stopped, hlost.idle⟩

/-- **The condition is exact**: once the callback has sent its stop command against the
condition, all calls can be finished and all commands applied so that the timer is inactive,
although the last start that returned was called after the last expiry and the last stop. -/
theorem inactive_of_callbackStop (hreach : (timer ι).Reachable s)
    (hcond : ¬CallbackStopsFirst s a) (h : Step s a s') :
    ∃ s'', (timer ι).LeadsTo s' s'' ∧ s''.queue = [] ∧ s''.phase = .idle ∧
      (∀ c, s''.pc c = .idle) ∧ s''.lastStart = some (.ok, s''.events) ∧
      s''.timer.active = false := by
  have hfin := finite_busy hreach
  have hlost : Lost hfin.toFinset s' := by
    cases h with
    | callbackStop hphase =>
      obtain ⟨hrestarted, hsent⟩ := not_or.mp hcond
      refine ⟨by simp [posTimerStop, Command.apply], hsent, not_not.mp hrestarted, by simp, ?_⟩
      intro c hc
      cases hpc : s.pc c with
      | idle => rfl
      | sending _ _ _ => simp [members, hpc, Pc.busy] at hc
    | _ => exact absurd trivial hcond
  refine exists_path_of_closer (I := Lost hfin.toFinset)
    (fun s => s.toQuiet hfin.toFinset) ?_ hlost
  intro s₁ hlost hgoal
  -- first all starts return, then the callback, and then the commands are applied
  by_cases hidle : ∀ c, s₁.pc c = .idle
  · have hbusy : s₁.phase ≠ .idle ∨ s₁.queue ≠ [] := by
      by_contra hquiet
      obtain ⟨hphase, hqueue⟩ := not_or.mp hquiet
      rw [not_not] at hphase hqueue
      have hlast : s₁.lastStart = some (.ok, s₁.events) := by
        rcases hlost.restarted with ⟨c, hc⟩ | ⟨hlast, -⟩
        · rw [hidle c] at hc
          cases hc
        · exact hlast
      have hinactive := hlost.inactive
      rw [hqueue] at hinactive
      exact hgoal ⟨hqueue, hphase, hidle, hlast, hinactive⟩
    obtain ⟨s₂, hstep, hlost', hlt⟩ := hlost.exists_apply hidle hbusy
    exact ⟨s₂, hstep, .inr ⟨hlost', hlt⟩⟩
  · obtain ⟨s₂, hstep, hlost', hlt⟩ := hlost.exists_return hidle
    exact ⟨s₂, hstep, .inr ⟨hlost', hlt⟩⟩

end Timer

end Poski.FreeRtos
