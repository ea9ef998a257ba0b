import Poski.Lib.Population
import Poski.Osal.Types

/-!
# Task Objects

`OsTask` of `OsTask.h`, over any port's `pos_task_init` and `pos_task_remove`. An object
remembers whether it has been started. `Remove` asks for that; `Start` does not, so an
object can be started again while its first task runs.

- `TaskPort` : a port's two calls
- `osTasks` : any number of objects, called in any order
- `TaskPort.Counts` : something that an initialisation takes and a removal gives back
- `TaskPort.Counts.census` : it is in use once for each started object, and once more for
  each time that a started object was started again
-/

namespace Poski

open Lib

universe u v w x

/-- A port's two calls on a task, each with its other arguments and the kernel's answers. -/
structure TaskPort (σ : Type u) (τ : Type v) (α : Type w) (β : Type x) where
  posTaskInit : σ → τ → α → PosError × σ
  posTaskRemove : σ → τ → β → PosError × σ

/-- The port's state, which the objects' `task_` are a part of, and the objects' `inited_`. -/
structure OsTasks (σ : Type u) (τ : Type v) where
  port : σ
  inited : τ → Bool

/-- A call on an object, with what it returns. -/
inductive OsTaskCall (τ : Type v) (α : Type w) (β : Type x) where
  | start (t : τ) (args : α) (err : PosError)
  /-- `Start` on an object that has been started, and not removed since. -/
  | restart (t : τ) (args : α) (err : PosError)
  | remove (t : τ) (args : β) (err : PosError)

/-- The object was started once more, with success. -/
def OsTaskCall.restarts {τ : Type v} {α : Type w} {β : Type x} : OsTaskCall τ α β → Bool
  | .restart _ _ err => err = .ok
  | _ => false

variable {σ : Type u} {τ : Type v} {α : Type w} {β : Type x} [DecidableEq τ]
variable {port : TaskPort σ τ α β} {s s' : OsTasks σ τ} {t : τ} {err : PosError}

namespace TaskPort

/-- `OsTask::Start`. -/
def start (port : TaskPort σ τ α β) (s : OsTasks σ τ) (t : τ) (args : α) :
    PosError × OsTasks σ τ :=
  let (err, p) := port.posTaskInit s.port t args
  if err = .ok then (err, { port := p, inited := Function.update s.inited t true })
  else (err, { s with port := p })

/-- `OsTask::Remove`. -/
def remove (port : TaskPort σ τ α β) (s : OsTasks σ τ) (t : τ) (args : β) :
    PosError × OsTasks σ τ :=
  if s.inited t then
    let (err, p) := port.posTaskRemove s.port t args
    if err = .ok then (err, { port := p, inited := Function.update s.inited t false })
    else (err, { s with port := p })
  else (.error, s)

/-- `Start` makes the port's call, and notes its success. -/
theorem start_eq {args : α} (h : port.start s t args = (err, s')) :
    port.posTaskInit s.port t args = (err, s'.port) ∧
      s'.inited = if err = .ok then Function.update s.inited t true else s.inited := by
  rcases hinit : port.posTaskInit s.port t args with ⟨err', p⟩
  simp only [start, hinit] at h
  split at h <;> cases h <;> simp [*]

theorem start_fst {args : α} :
    (port.start s t args).1 = (port.posTaskInit s.port t args).1 := by
  simp only [start]
  by_cases h : (port.posTaskInit s.port t args).1 = .ok
  · rw [if_pos h]
  · rw [if_neg h]

/-- `Remove` makes the port's call for a started object, and does nothing for the others. -/
theorem remove_cases {args : β} (h : port.remove s t args = (err, s')) :
    (s.inited t = true ∧ port.posTaskRemove s.port t args = (err, s'.port) ∧
      s'.inited = if err = .ok then Function.update s.inited t false else s.inited) ∨
    (s.inited t = false ∧ err = .error ∧ s' = s) := by
  unfold remove at h
  cases hinited : s.inited t with
  | true =>
    rcases hremove : port.posTaskRemove s.port t args with ⟨err', p⟩
    simp only [hinited, hremove, if_true] at h
    split at h <;> cases h <;> simp [*]
  | false =>
    rw [hinited] at h
    cases h
    exact .inr ⟨rfl, rfl, rfl⟩

end TaskPort

/-! ## The system -/

/-- One call, on any object and in any state. -/
inductive OsTaskStep (port : TaskPort σ τ α β) :
    OsTasks σ τ → OsTaskCall τ α β → OsTasks σ τ → Prop where
  | start {s s' : OsTasks σ τ} {t : τ} {args : α} {err : PosError}
      (hinited : s.inited t = false) (hcall : port.start s t args = (err, s')) :
      OsTaskStep port s (.start t args err) s'
  | restart {s s' : OsTasks σ τ} {t : τ} {args : α} {err : PosError}
      (hinited : s.inited t = true) (hcall : port.start s t args = (err, s')) :
      OsTaskStep port s (.restart t args err) s'
  | remove {s s' : OsTasks σ τ} {t : τ} {args : β} {err : PosError}
      (hcall : port.remove s t args = (err, s')) :
      OsTaskStep port s (.remove t args err) s'

/-- At first no object has been started. -/
def osTasks (port : TaskPort σ τ α β) (boot : σ → Prop) :
    TransitionSystem (OsTasks σ τ) (OsTaskCall τ α β) where
  init s := boot s.port ∧ ∀ t, s.inited t = false
  step := OsTaskStep port

/-! ## What is in use -/

/-- What a call that returns `err` counts for. -/
def counted (err : PosError) : ℤ := if err = .ok then 1 else 0

/-- In runs under `P`, an initialisation that succeeds takes one of what `used` counts, and a
removal of a started object that succeeds gives one back. -/
structure TaskPort.Counts (port : TaskPort σ τ α β) (boot : σ → Prop)
    (P : OsTasks σ τ → OsTaskCall τ α β → Prop) (used : σ → ℤ) : Prop where
  unused : ∀ p, boot p → used p = 0
  taken : ∀ s t args err p, (osTasks port boot).ReachableWhen P s →
    port.posTaskInit s.port t args = (err, p) → used p = used s.port + counted err
  given : ∀ s t args err p, (osTasks port boot).ReachableWhen P s → s.inited t = true →
    port.posTaskRemove s.port t args = (err, p) → used p = used s.port - counted err

variable {boot : σ → Prop} {P : OsTasks σ τ → OsTaskCall τ α β → Prop} {used : σ → ℤ}

/-- How many objects are started, after one call on one of them. -/
theorem population_inited (hfin : (members id s.inited).Finite) {b : Bool}
    (hinited : s'.inited = if err = .ok then Function.update s.inited t b else s.inited) :
    (members id s'.inited).Finite ∧
      (population id s'.inited : ℤ) =
        population id s.inited + counted err * (b.toNat - (s.inited t).toNat) := by
  rw [hinited]
  by_cases herr : err = .ok
  · have hmoved := population_update (p := id) hfin t b
    simp only [herr, if_true, counted, id, one_mul] at hmoved ⊢
    exact ⟨finite_members_update hfin t b, by omega⟩
  · simp [herr, counted, hfin]

/-- **Census**: what is in use is what the started objects have, and what has been lost by
starting them again. -/
theorem TaskPort.Counts.census (hcounts : port.Counts boot P used)
    {cs : List (OsTaskCall τ α β)} (hrun : (osTasks port boot).Run P cs s) :
    (members id s.inited).Finite ∧
      used s.port = population id s.inited + cs.countP OsTaskCall.restarts := by
  induction hrun with
  | start h =>
    obtain ⟨hboot, hinited⟩ := h
    simp [population, members, hinited, hcounts.unused _ hboot]
  | @step cs s s' c hrun _ hstep ih =>
    obtain ⟨hfin, hcount⟩ := ih
    have hreach : (osTasks port boot).ReachableWhen P s := ⟨cs, hrun⟩
    rw [List.countP_append, List.countP_singleton]
    cases hstep with
    | start ht hcall =>
      obtain ⟨hinit, hinited⟩ := TaskPort.start_eq hcall
      obtain ⟨hfin', hpop⟩ := population_inited hfin hinited
      refine ⟨hfin', ?_⟩
      rw [hcounts.taken _ _ _ _ _ hreach hinit, hcount, hpop, ht]
      simp [OsTaskCall.restarts]
      omega
    | restart ht hcall =>
      obtain ⟨hinit, hinited⟩ := TaskPort.start_eq hcall
      obtain ⟨hfin', hpop⟩ := population_inited hfin hinited
      refine ⟨hfin', ?_⟩
      -- the object stays started, and a second one of what it had is in use
      rw [hcounts.taken _ _ _ _ _ hreach hinit, hcount, hpop, ht]
      simp [OsTaskCall.restarts, counted]
      omega
    | remove hcall =>
      rcases TaskPort.remove_cases hcall with ⟨ht, hremove, hinited⟩ | ⟨_, _, rfl⟩
      · obtain ⟨hfin', hpop⟩ := population_inited hfin hinited
        refine ⟨hfin', ?_⟩
        rw [hcounts.given _ _ _ _ _ hreach ht hremove, hcount, hpop, ht]
        simp [OsTaskCall.restarts]
        omega
      · exact ⟨hfin, by simpa [OsTaskCall.restarts] using hcount⟩

end Poski
