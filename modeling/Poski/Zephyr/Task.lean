import Poski.Lib.SlotPool
import Poski.Lib.TransitionSystem
import Poski.Osal.Types

/-!
# The Stacks of Zephyr Tasks

`pos_task_init` and `pos_task_remove` of `os_task.c` of the Zephyr port. A task runs on one
of `MAX_TASKS` stacks of the port's own. Which stacks are taken is written down twice: in
`s_stack_used`, and in the pointer that each task object keeps, which a removal does not
clear.

- `stack_shared` : a task removed twice frees a stack that is another task's by then
- `TasksInv` : the stacks in use are the stacks of the live tasks, one for each
- `FreesOwnStack` : the condition on removals under which every call keeps that
- `stacks_owned` : runs under the condition
-/

namespace Poski.Zephyr

open Lib

universe u

abbrev MAX_TASKS : ℕ := 10

def STACK_SIZE : UInt16 := 2048

/-- `s_stack_used`, the task objects and their threads. A task object is known by its
address; of its fields, `stack` is the stack that `t->stack` points to, if it was ever set. -/
structure Tasks (τ : Type u) where
  stackUsed : Fin MAX_TASKS → Bool
  stack : τ → Option (Fin MAX_TASKS)
  /-- The kernel has created the object's thread, and has not been asked to abort it. -/
  live : τ → Bool

variable {τ : Type u}

/-- `for (int i = 0; i < MAX_TASKS; i++)` until the condition holds. -/
def findStack (cond : Fin MAX_TASKS → Bool) : Option (Fin MAX_TASKS) :=
  (List.finRange MAX_TASKS).find? cond

theorem findStack_eq_none {cond : Fin MAX_TASKS → Bool} :
    findStack cond = none ↔ ∀ i, cond i = false := by
  simp [findStack]

theorem findStack_spec {cond : Fin MAX_TASKS → Bool} {i : Fin MAX_TASKS}
    (h : findStack cond = some i) : cond i = true :=
  List.find?_some h

variable [DecidableEq τ]

/-- `pos_task_init`; `created` is whether `k_thread_create` returns a thread. -/
def posTaskInit (s : Tasks τ) (t : τ) (stackSize : UInt16) (created : Bool) :
    PosError × Tasks τ :=
  if STACK_SIZE < stackSize then (.einval, s)
  else
    match findStack fun i => !s.stackUsed i with
    | none => (.enomem, s)
    | some stackIdx =>
      let s := { s with
        stackUsed := Function.update s.stackUsed stackIdx true
        stack := Function.update s.stack t (some stackIdx) }
      if created then (.ok, { s with live := Function.update s.live t true })
      else (.error, { s with stackUsed := Function.update s.stackUsed stackIdx false })

/-- `pos_task_remove`. -/
def posTaskRemove (s : Tasks τ) (t : τ) : PosError × Tasks τ :=
  let s := { s with live := Function.update s.live t false }
  match findStack fun i => s.stack t = some i with
  | none => (.ok, s)
  | some i => (.ok, { s with stackUsed := Function.update s.stackUsed i false })

/-! ## What the calls do -/

variable {s s' : Tasks τ} {t : τ} {stackSize : UInt16}

/-- An initialisation whose thread is created succeeds on an unused stack, or changes
nothing. -/
theorem posTaskInit_cases {err : PosError} (h : posTaskInit s t stackSize true = (err, s')) :
    (err ≠ .ok ∧ s' = s) ∨
    ∃ i, s.stackUsed i = false ∧ err = .ok ∧
      s' = { stackUsed := Function.update s.stackUsed i true
             stack := Function.update s.stack t (some i)
             live := Function.update s.live t true } := by
  unfold posTaskInit at h
  split at h
  · cases h
    exact .inl ⟨by simp, rfl⟩
  · cases hfind : findStack fun i => !s.stackUsed i with
    | none =>
      rw [hfind] at h
      cases h
      exact .inl ⟨by simp, rfl⟩
    | some i =>
      -- the first unused stack
      have hunused : s.stackUsed i = false := by simpa using findStack_spec hfind
      rw [hfind] at h
      cases h
      exact .inr ⟨i, hunused, rfl, rfl⟩

/-- With an admissible stack size, `POS_ENOMEM` says that every stack is used. -/
theorem posTaskInit_eq_enomem {created : Bool} (hsize : stackSize ≤ STACK_SIZE) :
    (posTaskInit s t stackSize created).1 = .enomem ↔ ∀ i, s.stackUsed i = true := by
  unfold posTaskInit
  rw [if_neg (UInt16.not_lt.mpr hsize)]
  cases hfind : findStack fun i => !s.stackUsed i with
  | none =>
    have hused := findStack_eq_none.mp hfind
    simpa using hused
  | some i =>
    have hunused : s.stackUsed i = false := by simpa using findStack_spec hfind
    have hnot : ¬∀ i, s.stackUsed i = true := fun hall => by simp [hall i] at hunused
    cases created <;> simp [hnot]

/-- A removal frees the stack that the object points to. -/
theorem posTaskRemove_eq {i : Fin MAX_TASKS} (hstack : s.stack t = some i) :
    posTaskRemove s t = (.ok,
      { s with
        stackUsed := Function.update s.stackUsed i false
        live := Function.update s.live t false }) := by
  cases hfind : findStack fun i => s.stack t = some i with
  | none =>
    have hnone := findStack_eq_none.mp hfind i
    simp [hstack] at hnone
  | some j =>
    have hj : s.stack t = some j := by simpa using findStack_spec hfind
    have hij : i = j := Option.some_inj.mp (hstack.symm.trans hj)
    simp only [posTaskRemove, hfind, hij]

/-! ## The system -/

/-- The calls; `stack_size` is an argument of an initialisation. -/
inductive TaskCall (τ : Type u) where
  | init (t : τ) (stackSize : UInt16)
  | remove (t : τ)

/-- One call. An object that holds a live task is not initialised, and an object that was
never initialised is not removed. `k_thread_create` succeeds. -/
inductive TaskStep : Tasks τ → TaskCall τ → Tasks τ → Prop where
  | init {s s' : Tasks τ} {t : τ} {stackSize : UInt16} {err : PosError}
      (hdead : s.live t = false) (hcall : posTaskInit s t stackSize true = (err, s')) :
      TaskStep s (.init t stackSize) s'
  | remove {s s' : Tasks τ} {t : τ} {i : Fin MAX_TASKS} {err : PosError}
      (hinited : s.stack t = some i) (hcall : posTaskRemove s t = (err, s')) :
      TaskStep s (.remove t) s'

/-- At first no stack is used and no task has been initialised. -/
def zephyrTasks (τ : Type u) [DecidableEq τ] : TransitionSystem (Tasks τ) (TaskCall τ) where
  init s := (∀ i, s.stackUsed i = false) ∧ (∀ t, s.stack t = none) ∧ ∀ t, s.live t = false
  step := TaskStep

/-! ## The defect -/

/-- The first task is removed, the second one gets its stack, the first one is removed
again, and the third one gets the stack of the second. -/
theorem stack_shared :
    ¬∀ s : Tasks (Fin 3), (zephyrTasks (Fin 3)).Reachable s →
      ∀ t u, s.live t = true → s.live u = true → t ≠ u → s.stack t ≠ s.stack u := by
  intro halways
  have h0 : (zephyrTasks (Fin 3)).Run (fun _ _ => True) []
      { stackUsed := fun _ => false, stack := fun _ => none, live := fun _ => false } :=
    .start ⟨fun _ => rfl, fun _ => rfl, fun _ => rfl⟩
  have h1 := h0.next (.init 0 1024) trivial (.init rfl rfl)
  have h2 := h1.next (.remove 0) trivial (.remove rfl rfl)
  have h3 := h2.next (.init 1 1024) trivial (.init rfl rfl)
  have h4 := h3.next (.remove 0) trivial (.remove rfl rfl)
  have h5 := h4.next (.init 2 1024) trivial (.init rfl rfl)
  exact halways _ ⟨_, h5⟩ 1 2 rfl rfl (by decide) rfl

/-! ## Where the stacks are owned -/

/-- The stack that a live task holds. -/
def Tasks.held (s : Tasks τ) (t : τ) : Option (Fin MAX_TASKS) :=
  if s.live t = true then s.stack t else none

/-- The invariant: every live task has a stack of its own, and these are the used ones. -/
structure TasksInv (s : Tasks τ) : Prop where
  owned : SlotsOwned s.stackUsed s.held
  inited : ∀ t, s.live t = true → s.stack t ≠ none

/-- What is removed is live, or points to a stack that no live task holds. -/
def FreesOwnStack (s : Tasks τ) : TaskCall τ → Prop
  | .init _ _ => True
  | .remove t => s.live t = true ∨ ∀ u, s.live u = true → s.stack u ≠ s.stack t

omit [DecidableEq τ] in
theorem held_eq_some {i : Fin MAX_TASKS} :
    s.held t = some i ↔ s.live t = true ∧ s.stack t = some i := by
  simp [Tasks.held]

omit [DecidableEq τ] in
theorem TasksInv.held_ne_none (hinv : TasksInv s) : s.held t ≠ none ↔ s.live t = true := by
  have hinited := hinv.inited t
  cases hlive : s.live t <;> simp_all [Tasks.held]

/-- An initialised task holds its stack, and the others hold what they held before. -/
theorem held_init {stackUsed : Fin MAX_TASKS → Bool} (s : Tasks τ) (t : τ) (i : Fin MAX_TASKS) :
    Tasks.held
      { stackUsed := stackUsed
        stack := Function.update s.stack t (some i)
        live := Function.update s.live t true } = Function.update s.held t (some i) := by
  funext u
  rcases eq_or_ne u t with rfl | hne
  · simp [Tasks.held]
  · simp [Tasks.held, hne]

/-- A removed task holds nothing, and the others hold what they held before. -/
theorem held_remove {stackUsed : Fin MAX_TASKS → Bool} (s : Tasks τ) (t : τ) :
    Tasks.held { s with stackUsed := stackUsed, live := Function.update s.live t false } =
      Function.update s.held t none := by
  funext u
  rcases eq_or_ne u t with rfl | hne
  · simp [Tasks.held]
  · simp [Tasks.held, hne]

theorem TasksInv.start (h : (zephyrTasks τ).init s) : TasksInv s := by
  obtain ⟨hunused, -, hdead⟩ := h
  exact ⟨.empty hunused (by simp [Tasks.held, hdead]), by simp [hdead]⟩

theorem TasksInv.init (hinv : TasksInv s) {err : PosError} (hdead : s.live t = false)
    (h : posTaskInit s t stackSize true = (err, s')) : TasksInv s' := by
  rcases posTaskInit_cases h with ⟨-, rfl⟩ | ⟨i, hunused, -, rfl⟩
  · exact hinv
  refine ⟨?_, fun u hu => ?_⟩
  · rw [held_init]
    exact hinv.owned.acquire hunused (by simp [Tasks.held, hdead])
  · rcases eq_or_ne u t with rfl | hne
    · simp
    · simp only [Function.update_of_ne hne] at hu ⊢
      exact hinv.inited u hu

/-- **A removal keeps the invariant exactly if** it frees no other live task's stack. -/
theorem TasksInv.remove_iff (hinv : TasksInv s) {err : PosError} {i : Fin MAX_TASKS}
    (hinited : s.stack t = some i) (h : posTaskRemove s t = (err, s')) :
    TasksInv s' ↔ FreesOwnStack s (.remove t) := by
  rw [posTaskRemove_eq hinited] at h
  cases h
  -- an object that holds no live task still points to the stack that it had
  have hslot : ∀ j, s.held t = some j → j = i := by
    intro j hj
    exact Option.some_inj.mp ((held_eq_some.mp hj).2.symm.trans hinited)
  have hrelease := hinv.owned.release_iff hslot
  rw [← held_remove s t] at hrelease
  constructor
  · intro hinv'
    rw [FreesOwnStack, or_iff_not_imp_left, hinited]
    intro hdead u hu hstack
    -- a live task has come to hold the stack of the dead one
    have hut : u ≠ t := by
      rintro rfl
      exact hdead hu
    exact hrelease.mp hinv'.owned u hut (held_eq_some.mpr ⟨hu, hstack⟩)
  · intro hcond
    refine ⟨hrelease.mpr fun u hut hu => ?_, fun u hu => ?_⟩
    · rcases hcond with hlive | hothers
      · exact hut (hinv.owned.distinct u t i hu (held_eq_some.mpr ⟨hlive, hinited⟩))
      · obtain ⟨hlive, hstack⟩ := held_eq_some.mp hu
        exact hothers u hlive (hstack.trans hinited.symm)
    · rcases eq_or_ne u t with rfl | hne
      · simp at hu
      · simp only [Function.update_of_ne hne] at hu
        exact hinv.inited u hu

omit [DecidableEq τ] in
theorem TasksInv.used_all_iff (hinv : TasksInv s) :
    (∀ i, s.stackUsed i = true) ↔ {t | s.live t = true}.ncard = MAX_TASKS := by
  have huniv : {i | s.stackUsed i = true} = Set.univ ↔ ∀ i, s.stackUsed i = true :=
    Set.eq_univ_iff_forall
  have hcensus := hinv.owned.ncard_holders
  simp only [hinv.held_ne_none] at hcensus
  rw [hcensus, ← huniv, Set.eq_univ_iff_ncard, Nat.card_fin]

/-- **Every live task has a stack of its own** in every run whose removals free no other
live task's stack: two tasks have different ones, a stack is marked as used exactly if a
task holds it, and `POS_ENOMEM` is returned exactly if there are `MAX_TASKS` tasks. -/
theorem stacks_owned (hreach : (zephyrTasks τ).ReachableWhen FreesOwnStack s) :
    (∀ t u, s.live t = true → s.live u = true → t ≠ u → s.stack t ≠ s.stack u) ∧
    (∀ i, s.stackUsed i = true ↔ ∃ t, s.live t = true ∧ s.stack t = some i) ∧
    ∀ t stackSize, stackSize ≤ STACK_SIZE →
      ((posTaskInit s t stackSize true).1 = .enomem ↔
        {t | s.live t = true}.ncard = MAX_TASKS) := by
  have hinv : TasksInv s := by
    refine hreach.invariant (fun _ => TasksInv.start) ?_
    intro s c s' hinv hcond hstep
    cases hstep with
    | init hdead hcall => exact hinv.init hdead hcall
    | remove hinited hcall => exact (hinv.remove_iff hinited hcall).mpr hcond
  refine ⟨fun t u ht hu hne hstack => ?_, fun i => ?_, fun t stackSize hsize => ?_⟩
  · obtain ⟨i, hi⟩ := Option.ne_none_iff_exists'.mp (hinv.inited t ht)
    have hi' : s.stack u = some i := hstack.symm.trans hi
    exact hne (hinv.owned.distinct t u i (held_eq_some.mpr ⟨ht, hi⟩)
      (held_eq_some.mpr ⟨hu, hi'⟩))
  · simpa only [held_eq_some] using hinv.owned.used_iff i
  · rw [posTaskInit_eq_enomem hsize, hinv.used_all_iff]

/-- A task is removed twice before anybody else gets its stack. -/
theorem stacks_owned_reused :
    ∃ s : Tasks Bool, s.stack true = some 0 ∧ s.stack false = some 0 ∧ s.live false = true ∧
      (∀ t u, s.live t = true → s.live u = true → t ≠ u → s.stack t ≠ s.stack u) ∧
      (∀ i, s.stackUsed i = true ↔ ∃ t, s.live t = true ∧ s.stack t = some i) ∧
      ∀ t stackSize, stackSize ≤ STACK_SIZE →
        ((posTaskInit s t stackSize true).1 = .enomem ↔
          {t | s.live t = true}.ncard = MAX_TASKS) := by
  have h0 : (zephyrTasks Bool).Run FreesOwnStack []
      { stackUsed := fun _ => false, stack := fun _ => none, live := fun _ => false } :=
    .start ⟨fun _ => rfl, fun _ => rfl, fun _ => rfl⟩
  have h1 := h0.next (.init true 2048) trivial (.init rfl rfl)
  have h2 := h1.next (.remove true) (.inl rfl) (.remove rfl rfl)
  have h3 := h2.next (.remove true) (.inr fun u hu => by cases u <;> cases hu) (.remove rfl rfl)
  have h4 := h3.next (.init false 1028) trivial (.init rfl rfl)
  exact ⟨_, rfl, rfl, rfl, stacks_owned ⟨_, h4⟩⟩

end Poski.Zephyr
