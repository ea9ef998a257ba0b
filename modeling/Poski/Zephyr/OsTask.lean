import Poski.Osal.OsTask
import Poski.Zephyr.Task

/-!
# Task Objects over the Stacks of the Zephyr Port

`OsTask` over `pos_task_init` and `pos_task_remove` of `os_task.c` of the Zephyr port. The
guard of `Remove` mends the double removal that the port's own calls allow. A second `Start`
is not guarded: it takes a second stack, and the first one is forgotten.

- `StacksInv` : started objects have stacks of their own, which are in use
- `osTask_stacks` : what the stacks in use are
-/

namespace Poski.Zephyr

open Lib

universe u

variable {τ : Type u} [DecidableEq τ]

/-- The port's calls. `Start` also gives `stack_size`, and the kernel may create the thread or
not. -/
def taskPort (τ : Type u) [DecidableEq τ] : TaskPort (Tasks τ) τ (UInt16 × Bool) Unit where
  posTaskInit m t args := posTaskInit m t args.1 args.2
  posTaskRemove m t _ := posTaskRemove m t

/-- The objects of the Zephyr port, and the calls on them. -/
abbrev ZephyrOsTasks (τ : Type u) := OsTasks (Tasks τ) τ

abbrev ZephyrCall (τ : Type u) := OsTaskCall τ (UInt16 × Bool) Unit

def zephyrOsTasks (τ : Type u) [DecidableEq τ] :
    TransitionSystem (ZephyrOsTasks τ) (ZephyrCall τ) :=
  osTasks (taskPort τ) fun m => ∀ i, m.stackUsed i = false

/-- `k_thread_create` returns a thread wherever an object is started again. -/
def RestartCreates (_ : ZephyrOsTasks τ) : ZephyrCall τ → Prop
  | .restart _ args _ => args.2 = true
  | _ => True

variable {m m' : Tasks τ} {s s' : ZephyrOsTasks τ} {t : τ} {stackSize : UInt16}
  {created : Bool} {err : PosError}

/-! ## What an initialisation does -/

/-- An initialisation takes an unused stack, or leaves the marks as they are. -/
theorem posTaskInit_marks (h : posTaskInit m t stackSize created = (err, m')) :
    (err = .ok ∧ ∃ i, m.stackUsed i = false ∧
      m'.stackUsed = Function.update m.stackUsed i true ∧
      m'.stack = Function.update m.stack t (some i)) ∨
    (err ≠ .ok ∧ m'.stackUsed = m.stackUsed ∧ (∀ u ≠ t, m'.stack u = m.stack u) ∧
      (created = true → m'.stack = m.stack)) := by
  cases created with
  | true =>
    rcases posTaskInit_cases h with ⟨herr, rfl⟩ | ⟨i, hunused, rfl, rfl⟩
    · exact .inr ⟨herr, rfl, fun _ _ => rfl, fun _ => rfl⟩
    · exact .inl ⟨rfl, i, hunused, rfl, rfl⟩
  | false =>
    unfold posTaskInit at h
    split at h
    · cases h
      exact .inr ⟨by simp, rfl, fun _ _ => rfl, by simp⟩
    · cases hfind : findStack fun i => !m.stackUsed i with
      | none =>
        rw [hfind] at h
        cases h
        exact .inr ⟨by simp, rfl, fun _ _ => rfl, by simp⟩
      | some i =>
        -- the stack that was taken is given back, but `t->stack` stays
        have hunused : m.stackUsed i = false := by simpa using findStack_spec hfind
        rw [hfind] at h
        cases h
        refine .inr ⟨by simp, ?_, fun u hu => Function.update_of_ne hu _ _, by simp⟩
        simp [← hunused]

/-! ## Who holds which stack -/

/-- The stack that a started object has. -/
def startedStack (s : ZephyrOsTasks τ) (t : τ) : Option (Fin MAX_TASKS) :=
  if s.inited t = true then s.port.stack t else none

omit [DecidableEq τ] in
theorem startedStack_eq_some {i : Fin MAX_TASKS} :
    startedStack s t = some i ↔ s.inited t = true ∧ s.port.stack t = some i := by
  simp [startedStack]

omit [DecidableEq τ] in
theorem startedStack_congr (hinited : s'.inited = s.inited)
    (hstack : ∀ u, s.inited u = true → s'.port.stack u = s.port.stack u) :
    startedStack s' = startedStack s := by
  funext u
  unfold startedStack
  rw [hinited]
  cases hu : s.inited u with
  | true => simp [hstack u hu]
  | false => simp

/-- The invariant: every started object has a stack of its own, and these are used. -/
structure StacksInv (s : ZephyrOsTasks τ) : Prop where
  held : SlotsHeld s.port.stackUsed (startedStack s)
  inited : ∀ t, s.inited t = true → ∃ i, s.port.stack t = some i

theorem StacksInv.init (h : (zephyrOsTasks τ).init s) : StacksInv s := by
  obtain ⟨-, hinited⟩ := h
  exact ⟨.empty (by simp [startedStack, hinited]), by simp [hinited]⟩

theorem StacksInv.start (hinv : StacksInv s) (hcond : s.inited t = true → created = true)
    (h : (taskPort τ).start s t (stackSize, created) = (err, s')) : StacksInv s' := by
  obtain ⟨hinit, hinited⟩ := TaskPort.start_eq h
  rcases posTaskInit_marks hinit with ⟨rfl, i, hunused, hused, hstack⟩ |
    ⟨herr, hused, hothers, hstack⟩
  · have hheld : startedStack s' = Function.update (startedStack s) t (some i) := by
      funext u
      unfold startedStack
      rcases eq_or_ne u t with rfl | hu
      · simp [hinited, hstack]
      · simp [hinited, hstack, hu]
    refine ⟨?_, fun u hu => ?_⟩
    · rw [hused, hheld]
      exact hinv.held.acquire hunused
    · rcases eq_or_ne u t with rfl | hne
      · exact ⟨i, by simp [hstack]⟩
      · rw [hinited, if_pos rfl, Function.update_of_ne hne] at hu
        rw [hstack, Function.update_of_ne hne]
        exact hinv.inited u hu
  · rw [if_neg herr] at hinited
    -- only an object that is not started may have lost its stack
    have hkeep : ∀ u, s.inited u = true → s'.port.stack u = s.port.stack u := by
      intro u hu
      rcases eq_or_ne u t with rfl | hne
      · rw [hstack (hcond hu)]
      · exact hothers u hne
    refine ⟨?_, fun u hu => ?_⟩
    · rw [hused, startedStack_congr hinited hkeep]
      exact hinv.held
    · rw [hinited] at hu
      rw [hkeep u hu]
      exact hinv.inited u hu

/-- `Remove` frees the stack of a started object, and does nothing for the others. -/
theorem StacksInv.remove_cases (hinv : StacksInv s)
    (h : (taskPort τ).remove s t () = (err, s')) :
    (s.inited t = true ∧ err = .ok ∧ ∃ i, s.port.stack t = some i ∧
      s'.port.stackUsed = Function.update s.port.stackUsed i false ∧
      s'.port.stack = s.port.stack ∧ s'.inited = Function.update s.inited t false) ∨
    s' = s := by
  rcases TaskPort.remove_cases h with ⟨ht, hremove, hinited⟩ | ⟨-, -, rfl⟩
  · obtain ⟨i, hi⟩ := hinv.inited t ht
    have hcall : posTaskRemove s.port t = (err, s'.port) := hremove
    rw [posTaskRemove_eq hi, Prod.mk.injEq] at hcall
    obtain ⟨rfl, hport⟩ := hcall
    exact .inl ⟨ht, rfl, i, hi, by rw [← hport], by rw [← hport], by simpa using hinited⟩
  · exact .inr rfl

theorem StacksInv.remove (hinv : StacksInv s) (h : (taskPort τ).remove s t () = (err, s')) :
    StacksInv s' := by
  rcases hinv.remove_cases h with ⟨ht, -, i, hi, hused, hstack, hinited⟩ | rfl
  · have hheld : startedStack s' = Function.update (startedStack s) t none := by
      funext u
      unfold startedStack
      rcases eq_or_ne u t with rfl | hu
      · simp [hinited]
      · simp [hinited, hstack, hu]
    refine ⟨?_, fun u hu => ?_⟩
    · rw [hused, hheld]
      exact hinv.held.release (startedStack_eq_some.mpr ⟨ht, hi⟩)
    · rcases eq_or_ne u t with rfl | hne
      · simp [hinited] at hu
      · rw [hinited, Function.update_of_ne hne] at hu
        rw [hstack]
        exact hinv.inited u hu
  · exact hinv

theorem StacksInv.of_reachable (h : (zephyrOsTasks τ).ReachableWhen RestartCreates s) :
    StacksInv s := by
  refine h.invariant (fun _ => StacksInv.init) ?_
  intro s c s' hinv hcond hstep
  cases hstep with
  | start hinited hcall => exact hinv.start (by simp [hinited]) hcall
  | restart _ hcall => exact hinv.start (fun _ => hcond) hcall
  | remove hcall => exact hinv.remove hcall

/-! ## What the stacks in use are -/

/-- The stacks are what the port's calls take and give back. -/
theorem stacks_counted :
    (taskPort τ).Counts (fun m => ∀ i, m.stackUsed i = false) RestartCreates
      fun m => population id m.stackUsed where
  unused m hunused := by simp [population, members, hunused]
  taken s t args err m _ hinit := by
    rcases posTaskInit_marks hinit with ⟨rfl, i, hunused, hused, -⟩ | ⟨herr, hused, -, -⟩
    · have hmoved := population_update (p := id) (Set.toFinite (members id s.port.stackUsed)) i true
      rw [hunused] at hmoved
      rw [hused]
      simp only [counted, if_true, id, Bool.toNat_true, Bool.toNat_false] at hmoved ⊢
      omega
    · simp [hused, counted, herr]
  given s t args err m hreach ht hremove := by
    have hinv := StacksInv.of_reachable hreach
    obtain ⟨i, hi⟩ := hinv.inited t ht
    -- the object's stack is in use
    have hused := hinv.held.marked t i (startedStack_eq_some.mpr ⟨ht, hi⟩)
    have hcall : posTaskRemove s.port t = (err, m) := hremove
    rw [posTaskRemove_eq hi, Prod.mk.injEq] at hcall
    obtain ⟨rfl, rfl⟩ := hcall
    have hmoved := population_update (p := id) (Set.toFinite (members id s.port.stackUsed)) i false
    rw [hused] at hmoved
    simp only [counted, if_true, id, Bool.toNat_true, Bool.toNat_false] at hmoved ⊢
    omega

/-- **Each restart costs a stack**, in every run in which the kernel can create the threads of
restarted objects: started objects have different stacks, also where some were removed many
times; the stacks in use are as many as the started objects and the successful restarts so far;
and so `POS_ENOMEM` is returned exactly if these two make `MAX_TASKS`. -/
theorem osTask_stacks {cs : List (ZephyrCall τ)}
    (hrun : (zephyrOsTasks τ).Run RestartCreates cs s) :
    (∀ t u, s.inited t = true → s.inited u = true → t ≠ u → s.port.stack t ≠ s.port.stack u) ∧
    {i | s.port.stackUsed i = true}.ncard =
      {t | s.inited t = true}.ncard + cs.countP OsTaskCall.restarts ∧
    ∀ t stackSize created, stackSize ≤ STACK_SIZE →
      (((taskPort τ).start s t (stackSize, created)).1 = .enomem ↔
        {t | s.inited t = true}.ncard + cs.countP OsTaskCall.restarts = MAX_TASKS) := by
  have hinv := StacksInv.of_reachable ⟨cs, hrun⟩
  have hcensus : {i | s.port.stackUsed i = true}.ncard =
      {t | s.inited t = true}.ncard + cs.countP OsTaskCall.restarts :=
    mod_cast (stacks_counted.census hrun).2
  refine ⟨fun t u ht hu hne hstack => ?_, hcensus, fun t stackSize created hsize => ?_⟩
  · obtain ⟨i, hi⟩ := hinv.inited t ht
    have hi' : s.port.stack u = some i := hstack.symm.trans hi
    exact hne (hinv.held.distinct t u i (startedStack_eq_some.mpr ⟨ht, hi⟩)
      (startedStack_eq_some.mpr ⟨hu, hi'⟩))
  · have huniv : {i | s.port.stackUsed i = true} = Set.univ ↔
        ∀ i, s.port.stackUsed i = true := Set.eq_univ_iff_forall
    have hinit : ((taskPort τ).start s t (stackSize, created)).1 = .enomem ↔
        ∀ i, s.port.stackUsed i = true := by
      rw [TaskPort.start_fst]
      exact posTaskInit_eq_enomem hsize
    rw [hinit, ← huniv, Set.eq_univ_iff_ncard, Nat.card_fin, hcensus]

/-- An object is started twice and removed twice, and its first stack is lost. The second one
goes to another object. -/
theorem osTask_stacks_lost :
    ∃ s : ZephyrOsTasks Bool, s.inited true = false ∧ s.inited false = true ∧
      s.port.stackUsed 0 = true ∧ s.port.stack false = some 1 ∧
      (∀ t u, s.inited t = true → s.inited u = true → t ≠ u →
        s.port.stack t ≠ s.port.stack u) ∧
      {i | s.port.stackUsed i = true}.ncard = {t | s.inited t = true}.ncard + 1 ∧
      ∀ t stackSize created, stackSize ≤ STACK_SIZE →
        (((taskPort Bool).start s t (stackSize, created)).1 = .enomem ↔
          {t | s.inited t = true}.ncard + 1 = MAX_TASKS) := by
  have h0 : (zephyrOsTasks Bool).Run RestartCreates []
      { port := { stackUsed := fun _ => false, stack := fun _ => none, live := fun _ => false }
        inited := fun _ => false } :=
    .start ⟨fun _ => rfl, fun _ => rfl⟩
  have h1 := h0.next (.start true (1024, true) _) trivial (.start rfl rfl)
  have h2 := h1.next (.restart true (2048, true) _) rfl (.restart rfl rfl)
  have h3 := h2.next (.remove true () _) trivial (.remove rfl)
  have h4 := h3.next (.remove true () _) trivial (.remove rfl)
  have h5 := h4.next (.start false (512, true) _) trivial (.start rfl rfl)
  exact ⟨_, rfl, rfl, rfl, rfl, osTask_stacks h5⟩

end Poski.Zephyr
