import Mathlib.Logic.Function.Basic
import Poski.FreeRtos.Queue
import Poski.Lib.TransitionSystem

/-!
# Tasks of the FreeRTOS Port

`pos_task_init` and `pos_task_dispatch` of `os_task.c`, statement by statement. What a task is to
run is not handed to `xTaskCreate` but left in the `struct pos_task`, and read there when the
task comes to run. By then another `pos_task_init` on the same object may have written to it.

- `Written` : a task runs what was written last, function and argument apart
- `FreshObjects` : nobody initialises an object whose task has still to begin
- `task_runs_own` : then every task runs what it has been given
-/

namespace Poski.FreeRtos.Task

open Lib

universe u

/-- `struct pos_task` without the handle, which the port never reads. A function is some value
of `φ`; `none` is a null pointer. -/
structure PosTask (φ α : Type) where
  func : Option φ
  arg : α

/-- What `pos_task_init` is called with. -/
structure TaskArgs (τ φ α : Type) where
  task : τ
  name : String
  func : φ
  arg : α
  prio : UInt8
  stackSize : UInt16

/-- A native task and what it was created for, its stack in words; then the function that it
calls and the argument that it passes, as soon as it has read them. -/
structure NativeTask (τ φ α : Type) extends TaskArgs τ φ α where
  stackDepth : UInt16
  calls : Option φ
  passes : Option α

/-- The task is past `pos_task_dispatch`. -/
def NativeTask.begun {τ φ α : Type} (n : NativeTask τ φ α) : Bool :=
  n.calls.isSome && n.passes.isSome

/-- The task that `xTaskCreate` makes of the arguments, where a `pos_base_t` has `w` bytes. -/
def TaskArgs.native {τ φ α : Type} (w : UInt16) (args : TaskArgs τ φ α) : NativeTask τ φ α :=
  { args with stackDepth := args.stackSize / w, calls := none, passes := none }

/-- Where a caller is in `pos_task_init`. -/
inductive Pc (τ φ α : Type) where
  | idle
  | setFunc (args : TaskArgs τ φ α)
  | setArg (args : TaskArgs τ φ α)
  | create (args : TaskArgs τ φ α)
  | exit (err : PosError)

/-- The object that a caller is about to write to or to create a task for. -/
def Pc.object? {τ φ α : Type} : Pc τ φ α → Option τ
  | setFunc args | setArg args | create args => some args.task
  | idle | exit _ => none

/-- The objects, the native tasks in the order of their creation, and the callers. -/
structure State (ι : Type u) (τ φ α : Type) where
  task : τ → PosTask φ α
  native : List (NativeTask τ φ α)
  pc : ι → Pc τ φ α

/-- What can happen in a step; `c` is the caller it happens to, `k` the native task. -/
inductive Act (ι : Type u) (τ φ α : Type) where
  | call (c : ι) (args : TaskArgs τ φ α)
  /-- With a null pointer for the object or the function. -/
  | callNull (c : ι)
  | setFunc (c : ι) (args : TaskArgs τ φ α)
  | setArg (c : ι) (args : TaskArgs τ φ α)
  | create (c : ι) (ret : BaseType)
  | return (c : ι) (err : PosError)
  | readFunc (k : ℕ)
  | readArg (k : ℕ)

variable {ι : Type u} {τ φ α : Type} [DecidableEq ι] [DecidableEq τ]

/-- Caller `c` goes to `p`. -/
def State.goto (s : State ι τ φ α) (c : ι) (p : Pc τ φ α) : State ι τ φ α :=
  { s with pc := Function.update s.pc c p }

omit [DecidableEq τ] in
@[simp] theorem State.pc_goto_self (s : State ι τ φ α) (c : ι) (p : Pc τ φ α) :
    (s.goto c p).pc c = p := by
  simp [State.goto]

omit [DecidableEq τ] in
theorem State.pc_goto_of_ne (s : State ι τ φ α) {c c' : ι} (hc : c' ≠ c) (p : Pc τ φ α) :
    (s.goto c p).pc c' = s.pc c' := by
  simp [State.goto, hc]

def State.setTask (s : State ι τ φ α) (t : τ) (task : PosTask φ α) : State ι τ φ α :=
  { s with task := Function.update s.task t task }

/-- `pos_task_dispatch` up to the call, as far as the function is concerned: which one it is
that a task calls. -/
def posTaskDispatch (b : Build) (task : PosTask φ α) : Except Halt φ := do
  b.assert task.func.isSome
  match task.func with
  | none => .error .nullDeref
  | some func => return func

/-- One step. The constructors follow the statements of the source. -/
inductive Step (b : Build) (w : UInt16) : State ι τ φ α → Act ι τ φ α → State ι τ φ α → Prop where
  | call {s : State ι τ φ α} {c : ι} {args : TaskArgs τ φ α} (hpc : s.pc c = .idle) :
      Step b w s (.call c args) (s.goto c (.setFunc args))
  -- `return POS_INVALID_PARAM`
  | callNull {s : State ι τ φ α} {c : ι} (hpc : s.pc c = .idle) :
      Step b w s (.callNull c) (s.goto c (.exit .invalidParam))
  -- `task->func = func`
  | setFunc {s : State ι τ φ α} {c : ι} {args : TaskArgs τ φ α} (hpc : s.pc c = .setFunc args) :
      Step b w s (.setFunc c args)
        ((s.setTask args.task { s.task args.task with func := some args.func }).goto c
          (.setArg args))
  -- `task->arg = arg`
  | setArg {s : State ι τ φ α} {c : ι} {args : TaskArgs τ φ α} (hpc : s.pc c = .setArg args) :
      Step b w s (.setArg c args)
        ((s.setTask args.task { s.task args.task with arg := args.arg }).goto c (.create args))
  -- `err = xTaskCreate(..)`
  | create {s : State ι τ φ α} {c : ι} {args : TaskArgs τ φ α} (hpc : s.pc c = .create args) :
      Step b w s (.create c pdPASS)
        (State.goto { s with native := s.native ++ [args.native w] } c (.exit .ok))
  | createFails {s : State ι τ φ α} {c : ι} {args : TaskArgs τ φ α} {ret : BaseType}
      (hpc : s.pc c = .create args) (hret : ret ≠ pdPASS) :
      Step b w s (.create c ret) (s.goto c (.exit .enomem))
  | return {s : State ι τ φ α} {c : ι} {err : PosError} (hpc : s.pc c = .exit err) :
      Step b w s (.return c err) (s.goto c .idle)
  -- `task->func(task->arg)`, which reads the two in either order
  | readFunc {s : State ι τ φ α} {k : ℕ} {n : NativeTask τ φ α} {func : φ}
      (hnative : s.native[k]? = some n) (hnew : n.calls = none)
      (hrun : posTaskDispatch b (s.task n.task) = .ok func) :
      Step b w s (.readFunc k) { s with native := s.native.set k { n with calls := some func } }
  | readArg {s : State ι τ φ α} {k : ℕ} {n : NativeTask τ φ α}
      (hnative : s.native[k]? = some n) (hnew : n.passes = none) :
      Step b w s (.readArg k)
        { s with native := s.native.set k { n with passes := some (s.task n.task).arg } }

/-- Zeroed objects, and no tasks. -/
def tasks (b : Build) (w : UInt16) (ι : Type u) (τ φ α : Type) [DecidableEq ι] [DecidableEq τ] :
    TransitionSystem (State ι τ φ α) (Act ι τ φ α) where
  init s := (∀ t, (s.task t).func = none) ∧ s.native = [] ∧ ∀ c, s.pc c = .idle
  step := Step b w

/-! ## What was written last -/

/-- The function and the argument that a step writes to object `t`. -/
def Act.func? (t : τ) : Act ι τ φ α → Option φ
  | .setFunc _ args => if args.task = t then some args.func else none
  | _ => none

def Act.arg? (t : τ) : Act ι τ φ α → Option α
  | .setArg _ args => if args.task = t then some args.arg else none
  | _ => none

/-- The last function, and the last argument, that have been written to object `t`. -/
def lastFunc (t : τ) (as : List (Act ι τ φ α)) : Option φ := (as.filterMap (Act.func? t)).getLast?

def lastArg (t : τ) (as : List (Act ι τ φ α)) : Option α := (as.filterMap (Act.arg? t)).getLast?

variable {b : Build} {w : UInt16} {s s' : State ι τ φ α} {a : Act ι τ φ α}
  {as : List (Act ι τ φ α)} {t : τ} {c : ι} {n : NativeTask τ φ α}

omit [DecidableEq ι] in
theorem lastFunc_snoc : lastFunc t (as ++ [a]) = (a.func? t).or (lastFunc t as) := by
  unfold lastFunc
  rw [List.filterMap_append, List.getLast?_append]
  cases h : a.func? t <;> simp [h]

omit [DecidableEq ι] in
theorem lastArg_snoc : lastArg t (as ++ [a]) = (a.arg? t).or (lastArg t as) := by
  unfold lastArg
  rw [List.filterMap_append, List.getLast?_append]
  cases h : a.arg? t <;> simp [h]

/-- The objects contain what was written last, and a task that is created, or is about to be, has
had both its function and its argument written. -/
structure Written (as : List (Act ι τ φ α)) (s : State ι τ φ α) : Prop where
  func : ∀ t, (s.task t).func = lastFunc t as
  arg : ∀ t arg, lastArg t as = some arg → (s.task t).arg = arg
  setArg : ∀ c args, s.pc c = .setArg args → (lastFunc args.task as).isSome
  create : ∀ c args, s.pc c = .create args →
    (lastFunc args.task as).isSome ∧ (lastArg args.task as).isSome
  native : ∀ n ∈ s.native, (lastFunc n.task as).isSome ∧ (lastArg n.task as).isSome

theorem Written.start (h : (tasks b w ι τ φ α).init s) : Written [] s where
  func := h.1
  arg _ _ harg := by cases harg
  setArg c args hpc := by rw [h.2.2 c] at hpc; cases hpc
  create c args hpc := by rw [h.2.2 c] at hpc; cases hpc
  native n hn := by rw [h.2.1] at hn; cases hn

omit [DecidableEq ι] in
/-- Most steps write nothing. -/
theorem Written.quiet (h : Written as s) (hfunc : ∀ t, a.func? t = none)
    (harg : ∀ t, a.arg? t = none) : Written (as ++ [a]) s := by
  have hlastFunc : ∀ t, lastFunc t (as ++ [a]) = lastFunc t as := by
    intro t
    rw [lastFunc_snoc, hfunc, Option.none_or]
  have hlastArg : ∀ t, lastArg t (as ++ [a]) = lastArg t as := by
    intro t
    rw [lastArg_snoc, harg, Option.none_or]
  constructor
  all_goals simp only [hlastFunc, hlastArg]
  · exact h.func
  · exact h.arg
  · exact h.setArg
  · exact h.create
  · exact h.native

theorem Written.goto (h : Written as s) {p : Pc τ φ α}
    (hsetArg : ∀ args, p = .setArg args → (lastFunc args.task as).isSome)
    (hcreate : ∀ args, p = .create args →
      (lastFunc args.task as).isSome ∧ (lastArg args.task as).isSome) :
    Written as (s.goto c p) where
  func := h.func
  arg := h.arg
  setArg c' args hpc := by
    by_cases hc : c' = c
    · subst hc
      exact hsetArg args ((s.pc_goto_self c' p).symm.trans hpc)
    · exact h.setArg c' args ((s.pc_goto_of_ne hc p).symm.trans hpc)
  create c' args hpc := by
    by_cases hc : c' = c
    · subst hc
      exact hcreate args ((s.pc_goto_self c' p).symm.trans hpc)
    · exact h.create c' args ((s.pc_goto_of_ne hc p).symm.trans hpc)
  native := h.native

omit [DecidableEq ι] in
theorem isSome_lastFunc_snoc (h : (lastFunc t as).isSome) : (lastFunc t (as ++ [a])).isSome := by
  rw [lastFunc_snoc, Option.isSome_or, h, Bool.or_true]

omit [DecidableEq ι] in
theorem isSome_lastArg_snoc (h : (lastArg t as).isSome) : (lastArg t (as ++ [a])).isSome := by
  rw [lastArg_snoc, Option.isSome_or, h, Bool.or_true]

omit [DecidableEq ι] in
theorem Written.write_func (h : Written as s) (c : ι) (args : TaskArgs τ φ α) :
    Written (as ++ [.setFunc c args])
      (s.setTask args.task { s.task args.task with func := some args.func }) where
  func t := by
    rw [lastFunc_snoc]
    by_cases ht : t = args.task
    · subst ht
      simp [State.setTask, Act.func?]
    · simp [State.setTask, Act.func?, ht, Ne.symm ht, h.func t]
  arg t arg harg := by
    rw [lastArg_snoc] at harg
    have hsame : ((s.setTask args.task { s.task args.task with func := some args.func }).task t).arg
        = (s.task t).arg := by
      by_cases ht : t = args.task
      · subst ht
        simp [State.setTask]
      · simp [State.setTask, ht]
    rw [hsame]
    exact h.arg t arg (by simpa [Act.arg?] using harg)
  setArg c' args' hpc := isSome_lastFunc_snoc (h.setArg c' args' hpc)
  create c' args' hpc :=
    ⟨isSome_lastFunc_snoc (h.create c' args' hpc).1, isSome_lastArg_snoc (h.create c' args' hpc).2⟩
  native n hn := ⟨isSome_lastFunc_snoc (h.native n hn).1, isSome_lastArg_snoc (h.native n hn).2⟩

omit [DecidableEq ι] in
theorem Written.write_arg (h : Written as s) (c : ι) (args : TaskArgs τ φ α) :
    Written (as ++ [.setArg c args])
      (s.setTask args.task { s.task args.task with arg := args.arg }) where
  func t := by
    have hsame : ((s.setTask args.task { s.task args.task with arg := args.arg }).task t).func
        = (s.task t).func := by
      by_cases ht : t = args.task
      · subst ht
        simp [State.setTask]
      · simp [State.setTask, ht]
    rw [hsame, lastFunc_snoc, h.func t]
    rfl
  arg t arg harg := by
    rw [lastArg_snoc] at harg
    by_cases ht : t = args.task
    · subst ht
      simpa [State.setTask, Act.arg?] using harg
    · simp only [Act.arg?, Ne.symm ht, if_false, Option.none_or] at harg
      simpa [State.setTask, ht] using h.arg t arg harg
  setArg c' args' hpc := isSome_lastFunc_snoc (h.setArg c' args' hpc)
  create c' args' hpc :=
    ⟨isSome_lastFunc_snoc (h.create c' args' hpc).1, isSome_lastArg_snoc (h.create c' args' hpc).2⟩
  native n hn := ⟨isSome_lastFunc_snoc (h.native n hn).1, isSome_lastArg_snoc (h.native n hn).2⟩

omit [DecidableEq ι] in
/-- A native task goes on, with its object. -/
theorem Written.set_native (h : Written as s) {k : ℕ} {n' : NativeTask τ φ α}
    (hnative : s.native[k]? = some n) (htask : n'.task = n.task) :
    Written as { s with native := s.native.set k n' } where
  func := h.func
  arg := h.arg
  setArg := h.setArg
  create := h.create
  native m hm := by
    rcases List.mem_or_eq_of_mem_set hm with hm | rfl
    · exact h.native m hm
    · rw [htask]
      exact h.native n (List.mem_of_getElem? hnative)

theorem Written.step (h : Written as s) (hstep : Step b w s a s') : Written (as ++ [a]) s' := by
  cases hstep with
  | @call c args hpc =>
    exact (h.quiet (fun _ => rfl) fun _ => rfl).goto (fun _ hp => nomatch hp)
      fun _ hp => nomatch hp
  | @callNull c hpc =>
    exact (h.quiet (fun _ => rfl) fun _ => rfl).goto (fun _ hp => nomatch hp)
      fun _ hp => nomatch hp
  | @setFunc c args hpc =>
    refine (h.write_func c args).goto (fun args' hp => ?_) fun _ hp => nomatch hp
    cases hp
    rw [lastFunc_snoc]
    simp [Act.func?]
  | @setArg c args hpc =>
    refine (h.write_arg c args).goto (fun _ hp => nomatch hp) fun args' hp => ?_
    cases hp
    refine ⟨isSome_lastFunc_snoc (h.setArg c args hpc), ?_⟩
    rw [lastArg_snoc]
    simp [Act.arg?]
  | @create c args hpc =>
    have hcreated : Written (as ++ [.create c pdPASS])
        { s with native := s.native ++ [args.native w] } := by
      have hquiet : Written (as ++ [.create c pdPASS]) s := h.quiet (fun _ => rfl) fun _ => rfl
      refine ⟨hquiet.func, hquiet.arg, hquiet.setArg, hquiet.create, fun n hn => ?_⟩
      rcases List.mem_append.mp hn with hn | hn
      · exact hquiet.native n hn
      · rw [List.mem_singleton.mp hn]
        exact hquiet.create c args hpc
    exact hcreated.goto (fun _ hp => nomatch hp) fun _ hp => nomatch hp
  | @createFails c args ret hpc hret =>
    exact (h.quiet (fun _ => rfl) fun _ => rfl).goto (fun _ hp => nomatch hp)
      fun _ hp => nomatch hp
  | @«return» c err hpc =>
    exact (h.quiet (fun _ => rfl) fun _ => rfl).goto (fun _ hp => nomatch hp)
      fun _ hp => nomatch hp
  | @readFunc k n func hnative hnew hrun =>
    exact (h.quiet (fun _ => rfl) fun _ => rfl).set_native hnative rfl
  | @readArg k n hnative hnew =>
    exact (h.quiet (fun _ => rfl) fun _ => rfl).set_native hnative rfl

omit [DecidableEq ι] in
/-- **A task runs what was written last** to its object, whatever it was created for. Its
assertions do not fail. -/
theorem Written.dispatch (h : Written as s) (hn : n ∈ s.native) :
    ∃ func arg, lastFunc n.task as = some func ∧ lastArg n.task as = some arg ∧
      posTaskDispatch b (s.task n.task) = .ok func ∧ (s.task n.task).arg = arg := by
  obtain ⟨hfunc, harg⟩ := h.native n hn
  obtain ⟨func, hfunc⟩ := Option.isSome_iff_exists.mp hfunc
  obtain ⟨arg, harg⟩ := Option.isSome_iff_exists.mp harg
  refine ⟨func, arg, hfunc, harg, ?_, h.arg n.task arg harg⟩
  have hsome : (s.task n.task).func = some func := (h.func n.task).trans hfunc
  simp [posTaskDispatch, hsome, bind, Except.bind, pure, Except.pure]

/-! ## Own functions -/

/-- A call is for an object that nobody else is about to initialise, and whose tasks have begun
to run. -/
def FreshObjects (s : State ι τ φ α) : Act ι τ φ α → Prop
  | .call _ args => (∀ c, (s.pc c).object? ≠ some args.task) ∧
    ∀ n ∈ s.native, n.task = args.task → n.begun
  | _ => True

/-- The objects belong to one caller or one new task each. -/
structure Own (s : State ι τ φ α) : Prop where
  setArg : ∀ c args, s.pc c = .setArg args → (s.task args.task).func = some args.func
  create : ∀ c args, s.pc c = .create args → s.task args.task = ⟨some args.func, args.arg⟩
  alone : ∀ c c' t, (s.pc c).object? = some t → (s.pc c').object? = some t → c = c'
  new : ∀ n ∈ s.native, n.begun = false →
    s.task n.task = ⟨some n.func, n.arg⟩ ∧ ∀ c, (s.pc c).object? ≠ some n.task
  calls : ∀ n ∈ s.native, ∀ func, n.calls = some func → func = n.func
  passes : ∀ n ∈ s.native, ∀ arg, n.passes = some arg → arg = n.arg

theorem Own.start (h : (tasks b w ι τ φ α).init s) : Own s where
  setArg c args hpc := by rw [h.2.2 c] at hpc; cases hpc
  create c args hpc := by rw [h.2.2 c] at hpc; cases hpc
  alone c c' t hc := by rw [h.2.2 c] at hc; cases hc
  new n hn := by rw [h.2.1] at hn; cases hn
  calls n hn := by rw [h.2.1] at hn; cases hn
  passes n hn := by rw [h.2.1] at hn; cases hn

omit [DecidableEq τ] in
/-- A caller goes on that is not about to write, to an object that nobody else is concerned
with. -/
theorem Own.goto (h : Own s) {p : Pc τ φ α} (hsetArg : ∀ args, p ≠ .setArg args)
    (hcreate : ∀ args, p ≠ .create args)
    (halone : ∀ t, p.object? = some t → ∀ c', c' ≠ c → (s.pc c').object? ≠ some t)
    (hnew : ∀ n ∈ s.native, n.begun = false → p.object? ≠ some n.task) : Own (s.goto c p) where
  setArg c' args hpc := by
    by_cases hc : c' = c
    · subst hc
      exact absurd ((s.pc_goto_self c' p).symm.trans hpc) (hsetArg args)
    · exact h.setArg c' args ((s.pc_goto_of_ne hc p).symm.trans hpc)
  create c' args hpc := by
    by_cases hc : c' = c
    · subst hc
      exact absurd ((s.pc_goto_self c' p).symm.trans hpc) (hcreate args)
    · exact h.create c' args ((s.pc_goto_of_ne hc p).symm.trans hpc)
  alone c₁ c₂ t h₁ h₂ := by
    by_cases hc₁ : c₁ = c
    · by_cases hc₂ : c₂ = c
      · rw [hc₁, hc₂]
      · subst hc₁
        rw [s.pc_goto_self] at h₁
        rw [s.pc_goto_of_ne hc₂] at h₂
        exact absurd h₂ (halone t h₁ c₂ hc₂)
    · rw [s.pc_goto_of_ne hc₁] at h₁
      by_cases hc₂ : c₂ = c
      · subst hc₂
        rw [s.pc_goto_self] at h₂
        exact absurd h₁ (halone t h₂ c₁ hc₁)
      · rw [s.pc_goto_of_ne hc₂] at h₂
        exact h.alone c₁ c₂ t h₁ h₂
  new n hn hbegun := by
    refine ⟨(h.new n hn hbegun).1, fun c' => ?_⟩
    by_cases hc : c' = c
    · subst hc
      rw [s.pc_goto_self]
      exact hnew n hn hbegun
    · rw [s.pc_goto_of_ne hc]
      exact (h.new n hn hbegun).2 c'
  calls := h.calls
  passes := h.passes

omit [DecidableEq τ] in
/-- A caller is done with its object. -/
theorem Own.leave (h : Own s) {p : Pc τ φ α} (hp : p.object? = none) : Own (s.goto c p) := by
  refine h.goto (fun args heq => ?_) (fun args heq => ?_) (fun t ht => ?_) fun n _ _ => ?_
  · rw [heq] at hp
    cases hp
  · rw [heq] at hp
    cases hp
  · rw [hp] at ht
    cases ht
  · rw [hp]
    exact fun heq => nomatch heq

/-- A caller writes to its object. -/
theorem Own.write (h : Own s) {task : PosTask φ α} {p : Pc τ φ α}
    (hpc : (s.pc c).object? = some t) (hp : p.object? = some t)
    (hsetArg : ∀ args, p = .setArg args → args.task = t → task.func = some args.func)
    (hcreate : ∀ args, p = .create args → args.task = t → task = ⟨some args.func, args.arg⟩) :
    Own ((s.setTask t task).goto c p) := by
  -- another caller's object is another one
  have hother : ∀ c' args, c' ≠ c → (s.pc c').object? = some args →
      (s.setTask t task).task args = s.task args := by
    intro c' u hc hu
    refine Function.update_of_ne (fun heq => ?_) _ _
    subst heq
    exact hc (h.alone c' c u hu hpc)
  have hself : (s.setTask t task).task t = task := by
    simp [State.setTask]
  refine ⟨fun c' args hpc' => ?_, fun c' args hpc' => ?_, fun c₁ c₂ u h₁ h₂ => ?_,
    fun n hn hbegun => ?_, h.calls, h.passes⟩
  · by_cases hc : c' = c
    · subst hc
      rw [State.pc_goto_self] at hpc'
      have ht : args.task = t := by
        rw [hpc'] at hp
        exact Option.some_inj.mp hp
      show ((s.setTask t task).task args.task).func = _
      rw [ht, hself]
      exact hsetArg args hpc' ht
    · rw [State.pc_goto_of_ne _ hc] at hpc'
      have hobject : (s.pc c').object? = some args.task := congrArg Pc.object? hpc'
      show ((s.setTask t task).task args.task).func = _
      rw [hother c' args.task hc hobject]
      exact h.setArg c' args hpc'
  · by_cases hc : c' = c
    · subst hc
      rw [State.pc_goto_self] at hpc'
      have ht : args.task = t := by
        rw [hpc'] at hp
        exact Option.some_inj.mp hp
      show (s.setTask t task).task args.task = _
      rw [ht, hself]
      exact hcreate args hpc' ht
    · rw [State.pc_goto_of_ne _ hc] at hpc'
      have hobject : (s.pc c').object? = some args.task := congrArg Pc.object? hpc'
      show (s.setTask t task).task args.task = _
      rw [hother c' args.task hc hobject]
      exact h.create c' args hpc'
  · -- nobody's object has changed
    have hobject : ∀ c', (((s.setTask t task).goto c p).pc c').object? = (s.pc c').object? := by
      intro c'
      by_cases hc : c' = c
      · subst hc
        rw [State.pc_goto_self, hp, hpc]
      · rw [State.pc_goto_of_ne _ hc]
        rfl
    rw [hobject] at h₁ h₂
    exact h.alone c₁ c₂ u h₁ h₂
  · obtain ⟨htask, hfree⟩ := h.new n hn hbegun
    have hne : n.task ≠ t := fun heq => hfree c (heq ▸ hpc)
    refine ⟨?_, fun c' => ?_⟩
    · show (s.setTask t task).task n.task = _
      rw [← htask]
      exact Function.update_of_ne hne _ _
    · by_cases hc : c' = c
      · subst hc
        rw [State.pc_goto_self, hp]
        exact fun heq => hne (Option.some_inj.mp heq).symm
      · rw [State.pc_goto_of_ne _ hc]
        exact hfree c'

omit [DecidableEq ι] [DecidableEq τ] in
/-- A task is created for an object that nobody is about to write to. -/
theorem Own.add (h : Own s) {args : TaskArgs τ φ α}
    (htask : s.task args.task = ⟨some args.func, args.arg⟩)
    (hfree : ∀ c, (s.pc c).object? ≠ some args.task) :
    Own { s with native := s.native ++ [args.native w] } where
  setArg := h.setArg
  create := h.create
  alone := h.alone
  new n hn hbegun := by
    rcases List.mem_append.mp hn with hn | hn
    · exact h.new n hn hbegun
    · rw [List.mem_singleton.mp hn]
      exact ⟨htask, hfree⟩
  calls n hn func hcalls := by
    rcases List.mem_append.mp hn with hn | hn
    · exact h.calls n hn func hcalls
    · rw [List.mem_singleton.mp hn] at hcalls
      cases hcalls
  passes n hn arg hpasses := by
    rcases List.mem_append.mp hn with hn | hn
    · exact h.passes n hn arg hpasses
    · rw [List.mem_singleton.mp hn] at hpasses
      cases hpasses

omit [DecidableEq ι] [DecidableEq τ] in
/-- A new task runs its own function. -/
theorem Own.dispatch (h : Own s) (hn : n ∈ s.native) (hnew : n.begun = false) :
    posTaskDispatch b (s.task n.task) = .ok n.func ∧ (s.task n.task).arg = n.arg := by
  rw [(h.new n hn hnew).1]
  simp [posTaskDispatch, bind, Except.bind, pure, Except.pure]

omit [DecidableEq ι] [DecidableEq τ] in
/-- A new task reads what is its own. -/
theorem Own.set_native (h : Own s) {k : ℕ} {n' : NativeTask τ φ α}
    (hnative : s.native[k]? = some n) (hnew : n.begun = false)
    (hargs : n'.toTaskArgs = n.toTaskArgs)
    (hcalls : ∀ func, n'.calls = some func → func = n.func)
    (hpasses : ∀ arg, n'.passes = some arg → arg = n.arg) :
    Own { s with native := s.native.set k n' } where
  setArg := h.setArg
  create := h.create
  alone := h.alone
  new m hm hbegun := by
    rcases List.mem_or_eq_of_mem_set hm with hm | rfl
    · exact h.new m hm hbegun
    · rw [hargs]
      exact h.new n (List.mem_of_getElem? hnative) hnew
  calls m hm func hfunc := by
    rcases List.mem_or_eq_of_mem_set hm with hm | rfl
    · exact h.calls m hm func hfunc
    · rw [hargs]
      exact hcalls func hfunc
  passes m hm arg harg := by
    rcases List.mem_or_eq_of_mem_set hm with hm | rfl
    · exact h.passes m hm arg harg
    · rw [hargs]
      exact hpasses arg harg

theorem Own.step (h : Own s) (hfresh : FreshObjects s a) (hstep : Step b w s a s') : Own s' := by
  cases hstep with
  | @call c args hpc =>
    refine h.goto (fun _ hp => nomatch hp) (fun _ hp => nomatch hp) (fun t ht c' _ => ?_)
      fun n hn hbegun heq => ?_
    · cases ht
      exact hfresh.1 c'
    · have hbegan : n.begun = true := hfresh.2 n hn (Option.some_inj.mp heq).symm
      rw [hbegun] at hbegan
      cases hbegan
  | callNull hpc => exact h.leave rfl
  | @setFunc c args hpc =>
    refine h.write (congrArg Pc.object? hpc) rfl (fun args' hp _ => ?_) fun _ hp => nomatch hp
    cases hp
    rfl
  | @setArg c args hpc =>
    refine h.write (congrArg Pc.object? hpc) rfl (fun _ hp => nomatch hp) fun args' hp _ => ?_
    cases hp
    have hfunc : (s.task args.task).func = some args.func := h.setArg c args hpc
    simp only [hfunc]
  | @create c args hpc =>
    have hleft : Own (s.goto c (.exit .ok)) := h.leave rfl
    refine hleft.add (h.create c args hpc) fun c' hobject => ?_
    by_cases hc : c' = c
    · subst hc
      rw [State.pc_goto_self] at hobject
      cases hobject
    · rw [State.pc_goto_of_ne _ hc] at hobject
      exact hc (h.alone c' c args.task hobject (congrArg Pc.object? hpc))
  | createFails hpc hret => exact h.leave rfl
  | «return» hpc => exact h.leave rfl
  | @readFunc k n func hnative hnew hrun =>
    have hn : n ∈ s.native := List.mem_of_getElem? hnative
    have hbegun : n.begun = false := by simp [NativeTask.begun, hnew]
    refine h.set_native hnative hbegun rfl (fun func' hfunc => ?_) (h.passes n hn)
    cases hfunc
    exact Except.ok.inj (hrun.symm.trans (h.dispatch hn hbegun).1)
  | @readArg k n hnative hnew =>
    have hn : n ∈ s.native := List.mem_of_getElem? hnative
    have hbegun : n.begun = false := by simp [NativeTask.begun, hnew]
    refine h.set_native hnative hbegun rfl (h.calls n hn) fun arg harg => ?_
    cases harg
    exact (h.dispatch (b := b) hn hbegun).2

/-! ## Whole runs -/

/-- **What the tasks run.** In every run, a task comes to run the function and the argument that
were last written to its object, and no assertion fails. If objects are initialised only when
nobody else is about to initialise them and their tasks have begun to run, these are its own, and
all tasks that have begun have run their own. -/
theorem task_runs_own (hrun : (tasks b w ι τ φ α).Run (fun _ _ => True) as s) :
    (∀ n ∈ s.native, ∃ func arg, lastFunc n.task as = some func ∧ lastArg n.task as = some arg ∧
        posTaskDispatch b (s.task n.task) = .ok func ∧ (s.task n.task).arg = arg) ∧
      ((tasks b w ι τ φ α).Run FreshObjects as s →
        (∀ n ∈ s.native, n.begun = false →
          posTaskDispatch b (s.task n.task) = .ok n.func ∧ (s.task n.task).arg = n.arg) ∧
        ∀ n ∈ s.native, n.begun → n.calls = some n.func ∧ n.passes = some n.arg) := by
  refine ⟨fun n hn => ?_, fun hfresh => ?_⟩
  · have hwritten : Written as s :=
      hrun.invariant (fun _ => Written.start) fun _ _ _ _ h _ hstep => h.step hstep
    exact hwritten.dispatch hn
  · have hown : Own s := hfresh.invariant (I := fun _ s => Own s) (fun _ => Own.start)
      fun _ _ _ _ h hcond hstep => h.step hcond hstep
    refine ⟨fun n hn hnew => hown.dispatch hn hnew, fun n hn hbegun => ?_⟩
    rw [NativeTask.begun, Bool.and_eq_true] at hbegun
    obtain ⟨func, hfunc⟩ := Option.isSome_iff_exists.mp hbegun.1
    obtain ⟨arg, harg⟩ := Option.isSome_iff_exists.mp hbegun.2
    rw [hfunc, harg, hown.calls n hn func hfunc, hown.passes n hn arg harg]
    exact ⟨rfl, rfl⟩

/-- Two callers initialise one object at a time. The task of the first calls the function of the
second with its own argument, which nobody has asked for, and so will the task of the second. Had
the second waited, each would have run its own. -/
theorem task_runs_own_torn :
    (∃ s : State Bool Unit ℕ ℕ,
      s.native.map (fun n => (n.func, n.arg, n.calls, n.passes)) =
        [(1, 10, some 2, some 10), (2, 20, none, none)] ∧
      ∀ n ∈ s.native, ∃ func arg, some 2 = some func ∧ some 10 = some arg ∧
        posTaskDispatch ⟨false⟩ (s.task n.task) = .ok func ∧ (s.task n.task).arg = arg) ∧
    ∃ s : State Bool Unit ℕ ℕ,
      s.native.map (fun n => (n.func, n.arg, n.calls, n.passes)) =
        [(1, 10, some 1, some 10), (2, 20, none, none)] ∧
      (∀ n ∈ s.native, n.begun = false →
        posTaskDispatch ⟨false⟩ (s.task n.task) = .ok n.func ∧ (s.task n.task).arg = n.arg) ∧
      ∀ n ∈ s.native, n.begun → n.calls = some n.func ∧ n.passes = some n.arg := by
  let one : TaskArgs Unit ℕ ℕ := ⟨(), "one", 1, 10, 1, 512⟩
  let two : TaskArgs Unit ℕ ℕ := ⟨(), "two", 2, 20, 1, 512⟩
  let M := tasks ⟨false⟩ 4 Bool Unit ℕ ℕ
  have hinit : M.init ⟨fun _ => ⟨none, 0⟩, [], fun _ => .idle⟩ :=
    ⟨fun _ => rfl, rfl, fun _ => rfl⟩
  constructor
  · have h0 : M.Run (fun _ _ => True) [] _ := .start hinit
    have h1 := h0.next (.call false one) trivial (.call rfl)
    have h2 := h1.next (.call true two) trivial (.call rfl)
    have h3 := h2.next (.setFunc false one) trivial (.setFunc rfl)
    have h4 := h3.next (.setFunc true two) trivial (.setFunc rfl)
    have h5 := h4.next (.setArg true two) trivial (.setArg rfl)
    have h6 := h5.next (.setArg false one) trivial (.setArg rfl)
    have h7 := h6.next (.create false pdPASS) trivial (.create rfl)
    have h8 := h7.next (.create true pdPASS) trivial (.create rfl)
    have h9 := h8.next (.readFunc 0) trivial (.readFunc rfl rfl rfl)
    have h10 := h9.next (.readArg 0) trivial (.readArg rfl rfl)
    exact ⟨_, rfl, (task_runs_own h10).1⟩
  · have h0 : M.Run FreshObjects [] _ := .start hinit
    have h1 := h0.next (.call false one) ⟨nofun, nofun⟩ (.call rfl)
    have h2 := h1.next (.setFunc false one) trivial (.setFunc rfl)
    have h3 := h2.next (.setArg false one) trivial (.setArg rfl)
    have h4 := h3.next (.create false pdPASS) trivial (.create rfl)
    have h5 := h4.next (.readFunc 0) trivial (.readFunc rfl rfl rfl)
    have h6 := h5.next (.readArg 0) trivial (.readArg rfl rfl)
    have h7 := h6.next (.call true two)
      ⟨fun c => by cases c <;> nofun, fun n hn _ => by rw [List.mem_singleton.mp hn]; rfl⟩
      (.call rfl)
    have h8 := h7.next (.setFunc true two) trivial (.setFunc rfl)
    have h9 := h8.next (.setArg true two) trivial (.setArg rfl)
    have h10 := h9.next (.create true pdPASS) trivial (.create rfl)
    exact ⟨_, rfl, (task_runs_own (h10.mono fun _ _ _ => trivial)).2 h10⟩

end Poski.FreeRtos.Task
