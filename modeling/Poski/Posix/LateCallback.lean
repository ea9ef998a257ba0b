import Mathlib.Logic.Function.Basic
import Poski.Lib.Population
import Poski.Lib.TransitionSystem

/-!
# The Active Flag of a POSIX Timer

`pos_timer_start`, `pos_timer_stop` and `pos_timer_cb` of `os_timer.c` (where it is not
`__APPLE__`), statement by statement, as far as they touch `tm_active` and the kernel timer.
An expiry starts a notification thread, which calls `pos_timer_cb` whenever it gets to run.
All native calls succeed.

The flag does not tell which arming of the kernel timer it is about.

- `late_callback` : the callback of one arming clears the flag of the next one
- `Inv` : an armed timer is active, or is going to be
- `active_of_armed` : runs in which nobody clears the flag of a timer that stays armed
- `inactive_of_clears` : nothing less than that condition will do
-/

namespace Poski.Posix.LateCallback

open Lib

universe u

/-! ## The machine -/

/-- Where a task stands in `pos_timer_start` or `pos_timer_stop`. -/
inductive Pc where
  | idle
  | startSet
  | startArm
  | stopDisarm
  | stopClear
  | exit
  deriving DecidableEq, Repr

/-- What can happen in a step; `t` is the task it happens to. -/
inductive Act (ι : Type u) where
  | callStart (t : ι)
  | set (t : ι)
  | arm (t : ι)
  | callStop (t : ι)
  | disarm (t : ι)
  | clear (t : ι)
  | return (t : ι)
  | expire
  | callback

/-- `tm_active`, the kernel timer, how many notification threads have yet to call
`pos_timer_cb`, and the tasks that use the timer. -/
structure State (ι : Type u) where
  tmActive : Bool
  armed : Bool
  pending : ℕ
  pc : ι → Pc

variable {ι : Type u} [DecidableEq ι]

/-- Task `t` goes to `p`. -/
def State.goto (s : State ι) (t : ι) (p : Pc) : State ι :=
  { s with pc := Function.update s.pc t p }

/-- One step. The constructors follow the statements of the source. -/
inductive Step : State ι → Act ι → State ι → Prop where
  | callStart {s : State ι} {t : ι} (hpc : s.pc t = .idle) :
      Step s (.callStart t) (s.goto t .startSet)
  -- `timer->tm_active = true`
  | set {s : State ι} {t : ι} (hpc : s.pc t = .startSet) :
      Step s (.set t) ({ s with tmActive := true }.goto t .startArm)
  -- `timer_settime(timer->tm_timer, 0, &its, NULL)`, where `its.it_value` is not zero
  | arm {s : State ι} {t : ι} (hpc : s.pc t = .startArm) :
      Step s (.arm t) ({ s with armed := true }.goto t .exit)
  | callStop {s : State ι} {t : ι} (hpc : s.pc t = .idle) :
      Step s (.callStop t) (s.goto t .stopDisarm)
  -- `timer_settime(timer->tm_timer, 0, &its, NULL)`, where `its.it_value` is zero
  | disarm {s : State ι} {t : ι} (hpc : s.pc t = .stopDisarm) :
      Step s (.disarm t) ({ s with armed := false }.goto t .stopClear)
  -- `timer->tm_active = false`
  | clear {s : State ι} {t : ι} (hpc : s.pc t = .stopClear) :
      Step s (.clear t) ({ s with tmActive := false }.goto t .exit)
  | return {s : State ι} {t : ι} (hpc : s.pc t = .exit) : Step s (.return t) (s.goto t .idle)
  -- a one-shot timer is not armed any more when it has expired
  | expire {s : State ι} (harmed : s.armed = true) :
      Step s .expire { s with armed := false, pending := s.pending + 1 }
  -- `pos_timer_cb`: `timer->tm_active = false`
  | callback {s : State ι} {n : ℕ} (hpending : s.pending = n + 1) :
      Step s .callback { s with tmActive := false, pending := n }

/-- An initialised timer that nobody has used yet. -/
def timer (ι : Type u) [DecidableEq ι] : TransitionSystem (State ι) (Act ι) where
  init s := s.tmActive = false ∧ s.armed = false ∧ s.pending = 0 ∧ ∀ t, s.pc t = .idle
  step := Step

/-- `pos_timer_is_active`. -/
def State.isActive (s : State ι) : Bool := s.tmActive

/-! ## The defect -/

/-- The timer expires and is started again before the callback runs. -/
theorem late_callback :
    ¬∀ s : State Unit, (timer Unit).Reachable s → s.armed = true → (∀ t, s.pc t = .idle) →
      s.isActive = true := by
  intro halways
  have h0 : (timer Unit).Run (fun _ _ => True) []
      { tmActive := false, armed := false, pending := 0, pc := fun _ => .idle } :=
    .start ⟨rfl, rfl, rfl, fun _ => rfl⟩
  have h1 := h0.next (.callStart ()) trivial (.callStart rfl)
  have h2 := h1.next (.set ()) trivial (.set rfl)
  have h3 := h2.next (.arm ()) trivial (.arm rfl)
  have h4 := h3.next (.return ()) trivial (.return rfl)
  -- the callback of this expiry is going to be late
  have h5 := h4.next .expire trivial (.expire rfl)
  have h6 := h5.next (.callStart ()) trivial (.callStart rfl)
  have h7 := h6.next (.set ()) trivial (.set rfl)
  have h8 := h7.next (.arm ()) trivial (.arm rfl)
  have h9 := h8.next (.return ()) trivial (.return rfl)
  -- it clears the flag of the second arming
  have h10 := h9.next .callback trivial (.callback rfl)
  have hactive := halways _ ⟨_, h10⟩ rfl fun _ => rfl
  cases hactive

/-! ## Where the flag is right -/

/-- The calls in progress leave the timer armed, if they are finished in a suitable order:
one of them is about to arm it, or it is armed and none is about to disarm it. -/
def State.StaysArmed (s : State ι) : Prop :=
  (∃ t, s.pc t = .startArm) ∨ (s.armed = true ∧ ∀ t, s.pc t ≠ .stopDisarm)

/-- Some call is about to set the flag. -/
def State.SetsFlag (s : State ι) : Prop := ∃ t, s.pc t = .startSet

/-- The flag is cleared only while some call is about to set it again, or while the timer
does not stay armed. -/
def ClearsInactive (s : State ι) : Act ι → Prop
  | .clear _ | .callback => s.SetsFlag ∨ ¬s.StaysArmed
  | _ => True

/-- The invariant: a timer that stays armed is active, or is going to be. -/
def Inv (s : State ι) : Prop := s.StaysArmed → s.tmActive = true ∨ s.SetsFlag

variable {s s' : State ι} {a : Act ι}

/-- A task that neither leaves nor enters `p` makes no difference to who stands there. -/
theorem exists_goto_iff {t : ι} {p q : Pc} (hfrom : s.pc t ≠ q) (hto : p ≠ q) :
    (∃ u, (s.goto t p).pc u = q) ↔ ∃ u, s.pc u = q := by
  apply exists_congr
  intro u
  rcases eq_or_ne u t with rfl | hne
  · simp [State.goto, hfrom, hto]
  · simp [State.goto, Function.update_of_ne hne]

/-- As `exists_goto_iff`, for nobody standing there. -/
theorem forall_goto_iff {t : ι} {p q : Pc} (hfrom : s.pc t ≠ q) (hto : p ≠ q) :
    (∀ u, (s.goto t p).pc u ≠ q) ↔ ∀ u, s.pc u ≠ q := by
  simpa using not_congr (exists_goto_iff hfrom hto)

/-- A task that is neither about to arm the timer nor about to disarm it does not change what
the calls leave behind. -/
theorem staysArmed_goto_iff {t : ι} {p : Pc} (harm : s.pc t ≠ .startArm)
    (harm' : p ≠ .startArm) (hdisarm : s.pc t ≠ .stopDisarm) (hdisarm' : p ≠ .stopDisarm) :
    (s.goto t p).StaysArmed ↔ s.StaysArmed :=
  or_congr (exists_goto_iff harm harm')
    (and_congr_right fun _ => forall_goto_iff hdisarm hdisarm')

theorem Inv.start (hinit : (timer ι).init s) : Inv s := by
  obtain ⟨-, harmed, -, hidle⟩ := hinit
  intro hstays
  simp [State.StaysArmed, harmed, hidle] at hstays

theorem Inv.step (hinv : Inv s) (hcond : ClearsInactive s a) (h : Step s a s') : Inv s' := by
  cases h with
  | @callStart t hpc =>
    intro _
    exact .inr ⟨t, by simp [State.goto]⟩
  | @set t hpc => exact fun _ => .inl rfl
  | @arm t hpc =>
    intro _
    have hactive := hinv (.inl ⟨t, hpc⟩)
    exact hactive.imp_right (exists_goto_iff (by simp [hpc]) (by simp)).mpr
  | @callStop t hpc =>
    intro hstays
    have hstays' : s.StaysArmed := by
      rcases hstays with harm | ⟨_, hnone⟩
      · exact .inl ((exists_goto_iff (by simp [hpc]) (by simp)).mp harm)
      · exact absurd (by simp [State.goto]) (hnone t)
    exact (hinv hstays').imp_right (exists_goto_iff (by simp [hpc]) (by simp)).mpr
  | @disarm t hpc =>
    intro hstays
    -- the timer is not armed any more, so some call is about to arm it
    have harm : ∃ u, s.pc u = .startArm := by
      rcases hstays with harm | ⟨harmed, _⟩
      · exact (exists_goto_iff (s := { s with armed := false }) (by simp [hpc]) (by simp)).mp harm
      · cases harmed
    exact (hinv (.inl harm)).imp_right (exists_goto_iff (by simp [hpc]) (by simp)).mpr
  | @clear t hpc =>
    intro hstays
    have hstays' : s.StaysArmed :=
      (staysArmed_goto_iff (s := { s with tmActive := false }) (by simp [hpc]) (by simp)
        (by simp [hpc]) (by simp)).mp hstays
    -- the timer stays armed, so some call is about to set the flag again
    have hsets : s.SetsFlag := hcond.resolve_right (not_not.mpr hstays')
    exact .inr ((exists_goto_iff (by simp [hpc]) (by simp)).mpr hsets)
  | @«return» t hpc =>
    intro hstays
    have hstays' : s.StaysArmed :=
      (staysArmed_goto_iff (by simp [hpc]) (by simp) (by simp [hpc]) (by simp)).mp hstays
    exact (hinv hstays').imp_right (exists_goto_iff (by simp [hpc]) (by simp)).mpr
  | expire harmed =>
    intro hstays
    rcases hstays with harm | ⟨hfalse, _⟩
    · exact hinv (.inl harm)
    · cases hfalse
  | callback hpending =>
    intro hstays
    exact .inr (hcond.resolve_right (not_not.mpr hstays))

/-- **An armed timer is active** whenever no call is in progress, in every run in which
nobody clears the flag of a timer that stays armed. -/
theorem active_of_armed (hreach : (timer ι).ReachableWhen ClearsInactive s)
    (harmed : s.armed = true) (hidle : ∀ t, s.pc t = .idle) : s.isActive = true := by
  have hinv : Inv s :=
    hreach.invariant (fun _ => Inv.start) fun _ _ _ hinv hcond hstep => hinv.step hcond hstep
  have hstays : s.StaysArmed := .inr ⟨harmed, by simp [hidle]⟩
  rcases hinv hstays with hactive | ⟨t, hset⟩
  · exact hactive
  · rw [hidle t] at hset
    cases hset

/-- A timer expires, and another task starts it while the callback runs. -/
theorem active_of_armed_restarted :
    ∃ s : State Bool, s.armed = true ∧ s.pending = 0 ∧ s.isActive = true := by
  have h0 : (timer Bool).Run ClearsInactive []
      { tmActive := false, armed := false, pending := 0, pc := fun _ => .idle } :=
    .start ⟨rfl, rfl, rfl, fun _ => rfl⟩
  have h1 := h0.next (.callStart true) trivial (.callStart rfl)
  have h2 := h1.next (.set true) trivial (.set rfl)
  have h3 := h2.next (.arm true) trivial (.arm rfl)
  have h4 := h3.next .expire trivial (.expire rfl)
  have h5 := h4.next (.return true) trivial (.return rfl)
  have h6 := h5.next (.callStart false) trivial (.callStart rfl)
  have h7 := h6.next .callback (.inl ⟨false, rfl⟩) (.callback rfl)
  have h8 := h7.next (.set false) trivial (.set rfl)
  have h9 := h8.next (.arm false) trivial (.arm rfl)
  have h10 := h9.next (.return false) trivial (.return rfl)
  exact ⟨_, rfl, rfl, active_of_armed ⟨_, h10⟩ rfl fun t => by cases t <;> rfl⟩

/-! ## The condition is exact -/

/-- The task has a call in progress. -/
def Pc.busy : Pc → Bool
  | .idle => false
  | _ => true

/-- How many statements of its call a task has yet to execute. -/
def Pc.toReturn : Pc → ℕ
  | .idle => 0
  | .exit => 1
  | .startArm | .stopClear => 2
  | .startSet | .stopDisarm => 3

/-- The flag of a timer that stays armed is clear, and no call is going to set it. Only tasks
of `F` have calls in progress. -/
structure Lost (F : Finset ι) (s : State ι) : Prop where
  inactive : s.tmActive = false
  not_sets : ¬s.SetsFlag
  stays : s.StaysArmed
  idle : ∀ t, t ∉ F → s.pc t = .idle

variable {F : Finset ι}

/-- At any time only finitely many tasks have calls in progress. -/
theorem finite_busy (hreach : (timer ι).Reachable s) : (members Pc.busy s.pc).Finite := by
  refine hreach.invariant (I := fun s => (members Pc.busy s.pc).Finite) ?_ ?_
  · intro s hinit
    obtain ⟨-, -, -, hidle⟩ := hinit
    simp [members, hidle, Pc.busy]
  · intro s a s' hfin _ hstep
    cases hstep with
    | expire _ => exact hfin
    | callback _ => exact hfin
    | _ => exact finite_members_update hfin _ _

/-- One task executes a statement that leaves the timer as it is described in `Lost`. -/
theorem Lost.goto (hlost : Lost F s) {t : ι} {p : Pc} (hpc : s'.pc = s.pc)
    (hinactive : s'.tmActive = false) (hto : p ≠ .startSet)
    (hlt : p.toReturn < (s.pc t).toReturn) (hstays : (s'.goto t p).StaysArmed) :
    Lost F (s'.goto t p) ∧
      ∑ u ∈ F, ((s'.goto t p).pc u).toReturn < ∑ u ∈ F, (s.pc u).toReturn := by
  have hset : s'.pc t ≠ .startSet := fun hset => hlost.not_sets ⟨t, hpc ▸ hset⟩
  have hmem : t ∈ F := by
    by_contra hnot
    rw [hlost.idle t hnot] at hlt
    exact absurd hlt (Nat.not_lt_zero _)
  refine ⟨⟨hinactive, fun hsets => ?_, hstays, fun u hu => ?_⟩, ?_⟩
  · obtain ⟨u, hu⟩ := (exists_goto_iff hset hto).mp hsets
    exact hlost.not_sets ⟨u, hpc ▸ hu⟩
  · have hne : u ≠ t := fun heq => hu (heq ▸ hmem)
    simpa [State.goto, Function.update_of_ne hne, hpc] using hlost.idle u hu
  · rw [← hpc] at hlt ⊢
    exact sum_rank_update_lt Pc.toReturn hmem hlt

/-- The calls in progress can be finished: the timer is disarmed first, then armed, and only
then do the calls return. -/
theorem Lost.closer (hlost : Lost F s) (hbusy : ¬∀ t, s.pc t = .idle) :
    ∃ s', (∃ a, Step s a s') ∧ Lost F s' ∧
      ∑ t ∈ F, (s'.pc t).toReturn < ∑ t ∈ F, (s.pc t).toReturn := by
  -- who is about to disarm the timer goes first, as long as another one is about to arm it
  by_cases hdisarm : ∃ t, s.pc t = .stopDisarm
  · obtain ⟨t, hpc⟩ := hdisarm
    have harm : ∃ u, s.pc u = .startArm := hlost.stays.resolve_right fun h => h.2 t hpc
    have harm' : ∃ u, (({ s with armed := false } : State ι).goto t .stopClear).pc u = .startArm :=
      (exists_goto_iff (by simp [hpc]) (by simp)).mpr harm
    exact ⟨_, ⟨_, .disarm hpc⟩,
      hlost.goto rfl hlost.inactive (by simp) (by simp [hpc, Pc.toReturn]) (.inl harm')⟩
  have hnone : ∀ t, s.pc t ≠ .stopDisarm := not_exists.mp hdisarm
  -- then the timer is armed
  by_cases harm : ∃ t, s.pc t = .startArm
  · obtain ⟨t, hpc⟩ := harm
    have hnone' : ∀ u, (({ s with armed := true } : State ι).goto t .exit).pc u ≠ .stopDisarm :=
      (forall_goto_iff (by simp [hpc]) (by simp)).mpr hnone
    exact ⟨_, ⟨_, .arm hpc⟩,
      hlost.goto rfl hlost.inactive (by simp) (by simp [hpc, Pc.toReturn]) (.inr ⟨rfl, hnone'⟩)⟩
  -- and then the calls return, which leaves it armed
  have harmed : s.armed = true := (hlost.stays.resolve_left harm).1
  obtain ⟨t, ht⟩ := not_forall.mp hbusy
  cases hpc : s.pc t with
  | idle => exact absurd hpc ht
  | startSet => exact absurd ⟨t, hpc⟩ hlost.not_sets
  | startArm => exact absurd ⟨t, hpc⟩ harm
  | stopDisarm => exact absurd hpc (hnone t)
  | stopClear =>
    have hnone' : ∀ u, (({ s with tmActive := false } : State ι).goto t .exit).pc u ≠ .stopDisarm :=
      (forall_goto_iff (by simp [hpc]) (by simp)).mpr hnone
    exact ⟨_, ⟨_, .clear hpc⟩,
      hlost.goto rfl rfl (by simp) (by simp [hpc, Pc.toReturn]) (.inr ⟨harmed, hnone'⟩)⟩
  | exit =>
    have hnone' : ∀ u, (s.goto t .idle).pc u ≠ .stopDisarm :=
      (forall_goto_iff (by simp [hpc]) (by simp)).mpr hnone
    exact ⟨_, ⟨_, .return hpc⟩,
      hlost.goto rfl hlost.inactive (by simp) (by simp [hpc, Pc.toReturn]) (.inr ⟨harmed, hnone'⟩)⟩

/-- A step that clears the flag against the condition. -/
theorem Lost.of_clears (hidle : ∀ t, t ∉ F → s'.pc t = .idle) (hcond : ¬ClearsInactive s a)
    (h : Step s a s') : Lost F s' := by
  cases h with
  | @clear t hpc =>
    obtain ⟨hset, hstays⟩ := not_or.mp hcond
    refine ⟨rfl, fun hsets => hset ?_, ?_, hidle⟩
    · exact (exists_goto_iff (by simp [hpc]) (by simp)).mp hsets
    · exact (staysArmed_goto_iff (s := { s with tmActive := false }) (by simp [hpc]) (by simp)
        (by simp [hpc]) (by simp)).mpr (not_not.mp hstays)
  | callback _ =>
    obtain ⟨hset, hstays⟩ := not_or.mp hcond
    exact ⟨rfl, hset, not_not.mp hstays, hidle⟩
  | _ => exact absurd trivial hcond

/-- **The condition is exact**: once a step has cleared the flag against the condition, the
calls in progress can be finished so that the timer is armed and not active. -/
theorem inactive_of_clears (hreach : (timer ι).Reachable s) (hcond : ¬ClearsInactive s a)
    (h : Step s a s') :
    ∃ s'', (timer ι).LeadsTo s' s'' ∧ s''.armed = true ∧ (∀ t, s''.pc t = .idle) ∧
      s''.isActive = false := by
  obtain ⟨as, hrun⟩ := hreach
  have hfin := finite_busy ⟨_, hrun.next a trivial h⟩
  have hidle : ∀ t, t ∉ hfin.toFinset → s'.pc t = .idle := by
    intro t ht
    cases hpc : s'.pc t <;> simp [members, hpc, Pc.busy] at ht ⊢
  have hlost := Lost.of_clears hidle hcond h
  refine exists_path_of_closer (I := Lost hfin.toFinset)
    (fun s => ∑ t ∈ hfin.toFinset, (s.pc t).toReturn) ?_ hlost
  intro s₁ hlost hgoal
  have hbusy : ¬∀ t, s₁.pc t = .idle := by
    intro hidle
    have harmed : s₁.armed = true := by
      rcases hlost.stays with ⟨t, harm⟩ | ⟨harmed, -⟩
      · rw [hidle t] at harm
        cases harm
      · exact harmed
    exact hgoal ⟨harmed, hidle, hlost.inactive⟩
  obtain ⟨s₂, hstep, hlost', hlt⟩ := hlost.closer hbusy
  exact ⟨s₂, hstep, .inr ⟨hlost', hlt⟩⟩

end Poski.Posix.LateCallback
