import Poski.Osal.OsTask
import Poski.Posix.Native

/-!
# Tasks of the POSIX Port

`pos_task_init`, `pos_task_remove` and `pos_task_count` of `os_task.c`, and the objects of
`OsTask.h` over them. The stack size is raised to `PTHREAD_STACK_MIN`, which a host is free
to choose and some choose above what 16 bits can hold.

- `le_clampStackSize_iff` : when the size asked for is one that the host accepts
- `osTask_count` : what is counted, and on which hosts tasks can be started
-/

namespace Poski.Posix

open Lib

universe u

/-- `s_task_count`, and the `handle` of each task object, which is zero at first. The count is an
`int` in the source and has no bounds here: it is the number of threads that have been started and
not removed (`osTask_count`), so that it would take `2 ^ 31` of them to leave the range. -/
structure PosixTasks (τ : Type u) where
  taskCount : ℤ
  handle : τ → ℕ

/-- What the native calls of one `pos_task_init` answer. The last one also tells what
`pthread_create` leaves in `t->handle`, whether it succeeds or not. -/
structure InitNatives where
  attrInit : Errno
  attrGetschedparam : Errno
  attrSetschedpolicy : Errno
  attrSetstacksize : ℕ → Errno
  attrSetschedparam : UInt8 → Errno
  create : Errno × ℕ

/-- The arguments of `pos_task_init` other than the object, and what it is answered. -/
structure InitArgs where
  /-- `func != NULL` -/
  hasFunc : Bool
  prio : UInt8
  stackSize : UInt16
  natives : InitNatives

/-- `SuccessOrExit`: the code is left in `ret`. -/
def successOrExit (ret : Errno) : Except Errno Unit :=
  if ret = .success then .ok () else .error ret

theorem successOrExit_eq_ok {ret : Errno} {u : Unit} :
    successOrExit ret = .ok u ↔ ret = .success := by
  by_cases h : ret = .success <;> simp [successOrExit, h]

theorem successOrExit_ne_error {ret : Errno} : successOrExit ret ≠ .error .success := by
  by_cases h : ret = .success <;> simp [successOrExit, h]

/-- `stack_size = (stack_size < PTHREAD_STACK_MIN) ? PTHREAD_STACK_MIN : stack_size`, which
is assigned to 16 bits. -/
def clampStackSize (PTHREAD_STACK_MIN : ℕ) (stackSize : UInt16) : UInt16 :=
  if stackSize.toNat < PTHREAD_STACK_MIN then UInt16.ofNat PTHREAD_STACK_MIN else stackSize

/-- The calls before `pthread_create`. -/
def setAttributes (PTHREAD_STACK_MIN : ℕ) (args : InitArgs) : Except Errno Unit := do
  successOrExit args.natives.attrInit
  successOrExit args.natives.attrGetschedparam
  successOrExit args.natives.attrSetschedpolicy
  let stackSize := clampStackSize PTHREAD_STACK_MIN args.stackSize
  successOrExit (args.natives.attrSetstacksize stackSize.toNat)
  successOrExit (args.natives.attrSetschedparam args.prio)

variable {τ : Type u} [DecidableEq τ]

/-- `pos_task_init`. -/
def posTaskInit (PTHREAD_STACK_MIN : ℕ) (s : PosixTasks τ) (t : Option τ) (args : InitArgs) :
    PosError × PosixTasks τ :=
  match t with
  | none => (.invalidParam, s)
  | some t =>
    if !args.hasFunc then (.invalidParam, s)
    else
      match setAttributes PTHREAD_STACK_MIN args with
      | .error ret => (mapPosixToOsalError ret, s)
      | .ok () =>
        let (ret, handle) := args.natives.create
        let s := { s with handle := Function.update s.handle t handle }
        match successOrExit ret with
        | .error ret => (mapPosixToOsalError ret, s)
        | .ok () => (mapPosixToOsalError ret, { s with taskCount := s.taskCount + 1 })

/-- `pos_task_remove`; `cancel` is what `pthread_cancel` answers. -/
def posTaskRemove (s : PosixTasks τ) (t : Option τ) (cancel : ℕ → Errno) :
    PosError × PosixTasks τ :=
  match t with
  | none => (mapPosixToOsalError .EINVAL, s)
  | some t =>
    if s.handle t = 0 then (mapPosixToOsalError .EINVAL, s)
    else
      match successOrExit (cancel (s.handle t)) with
      | .error ret => (mapPosixToOsalError ret, s)
      | .ok () => (mapPosixToOsalError .success, { s with taskCount := s.taskCount - 1 })

omit [DecidableEq τ] in
/-- `pos_task_count`, which returns 8 bits of the count. -/
def posTaskCount (s : PosixTasks τ) : UInt8 := UInt8.ofInt s.taskCount

variable {PTHREAD_STACK_MIN : ℕ} {s s' : PosixTasks τ} {t : τ} {args : InitArgs}
  {cancel : ℕ → Errno} {err : PosError}

/-! ## What the calls do -/

/-- The size asked for reaches the host's minimum, whatever size the caller gave, exactly if
that minimum fits 16 bits. -/
theorem le_clampStackSize_iff (stackSize : UInt16) :
    PTHREAD_STACK_MIN ≤ (clampStackSize PTHREAD_STACK_MIN stackSize).toNat ↔
      PTHREAD_STACK_MIN < UInt16.size := by
  constructor
  · intro hle
    exact hle.trans_lt (UInt16.toNat_lt_size _)
  · intro hfits
    unfold clampStackSize
    by_cases hlt : stackSize.toNat < PTHREAD_STACK_MIN
    · rw [if_pos hlt, UInt16.toNat_ofNat_of_lt' hfits]
    · rw [if_neg hlt]
      exact Nat.not_lt.mp hlt

theorem setAttributes_eq_ok {u : Unit} :
    setAttributes PTHREAD_STACK_MIN args = .ok u ↔
      args.natives.attrInit = .success ∧ args.natives.attrGetschedparam = .success ∧
      args.natives.attrSetschedpolicy = .success ∧
      args.natives.attrSetstacksize
        (clampStackSize PTHREAD_STACK_MIN args.stackSize).toNat = .success ∧
      args.natives.attrSetschedparam args.prio = .success := by
  simp [setAttributes, bind_eq_ok, successOrExit_eq_ok]

/-- A call that leaves the chain leaves an error in `ret`. -/
theorem setAttributes_ne_error : setAttributes PTHREAD_STACK_MIN args ≠ .error .success := by
  have hbind {x y : Except Errno Unit} (hx : x ≠ .error .success) (hy : y ≠ .error .success) :
      (x >>= fun _ => y) ≠ .error .success := by
    cases x with
    | error ret => exact hx
    | ok u => exact hy
  exact hbind successOrExit_ne_error (hbind successOrExit_ne_error
    (hbind successOrExit_ne_error (hbind successOrExit_ne_error successOrExit_ne_error)))

/-- An initialisation succeeds exactly if it is given a function and every native call does, and
is counted exactly if it succeeds. -/
theorem posTaskInit_spec (h : posTaskInit PTHREAD_STACK_MIN s (some t) args = (err, s')) :
    (err = .ok ↔ args.hasFunc = true ∧ setAttributes PTHREAD_STACK_MIN args = .ok () ∧
      args.natives.create.1 = .success) ∧
    s'.taskCount = s.taskCount + counted err := by
  unfold posTaskInit at h
  by_cases hfunc : args.hasFunc = true
  · cases hattr : setAttributes PTHREAD_STACK_MIN args with
    | error ret =>
      have herr : ret ≠ .success := by
        rintro rfl
        exact setAttributes_ne_error hattr
      simp only [hfunc, hattr, Bool.not_true, Bool.false_eq_true, if_false] at h
      cases h
      simp [counted, mapPosixToOsalError_eq_ok, herr]
    | ok u =>
      -- the handle is stored whether or not there is a thread
      by_cases hret : args.natives.create.1 = .success
      · simp only [hfunc, hattr, hret, successOrExit, if_true, Bool.not_true,
          Bool.false_eq_true, if_false] at h
        cases h
        simp [counted, mapPosixToOsalError, hfunc, hret]
      · simp only [hfunc, hattr, hret, successOrExit, Bool.not_true,
          Bool.false_eq_true, if_false] at h
        cases h
        simp [counted, mapPosixToOsalError_eq_ok, hret]
  · simp only [hfunc, Bool.not_false, if_true] at h
    cases h
    simp [counted, hfunc]

omit [DecidableEq τ] in
/-- A removal is counted exactly if it returns `POS_OK`. -/
theorem taskCount_posTaskRemove (h : posTaskRemove s (some t) cancel = (err, s')) :
    s'.taskCount = s.taskCount - counted err := by
  unfold posTaskRemove at h
  by_cases hhandle : s.handle t = 0
  · simp only [hhandle, if_true] at h
    cases h
    simp [counted, mapPosixToOsalError]
  · by_cases hret : cancel (s.handle t) = .success
    · simp only [hhandle, hret, successOrExit, if_true, if_false] at h
      cases h
      rfl
    · simp only [hhandle, hret, successOrExit, if_false] at h
      cases h
      simp [counted, mapPosixToOsalError_eq_ok, hret]

/-! ## The objects -/

/-- The port's calls. An object's `task_` is never null. -/
def taskPort (PTHREAD_STACK_MIN : ℕ) (τ : Type u) [DecidableEq τ] :
    TaskPort (PosixTasks τ) τ InitArgs (ℕ → Errno) where
  posTaskInit s t args := posTaskInit PTHREAD_STACK_MIN s (some t) args
  posTaskRemove s t cancel := posTaskRemove s (some t) cancel

abbrev PosixCall (τ : Type u) := OsTaskCall τ InitArgs (ℕ → Errno)

def posixOsTasks (PTHREAD_STACK_MIN : ℕ) (τ : Type u) [DecidableEq τ] :
    TransitionSystem (OsTasks (PosixTasks τ) τ) (PosixCall τ) :=
  osTasks (taskPort PTHREAD_STACK_MIN τ) fun s => s.taskCount = 0

/-- `pthread_attr_setstacksize` refuses the sizes below the minimum, and no others. -/
def HonoursStackMin (PTHREAD_STACK_MIN : ℕ) (natives : InitNatives) : Prop :=
  ∀ n, natives.attrSetstacksize n = .success ↔ PTHREAD_STACK_MIN ≤ n

/-- The native calls of `pos_task_init` succeed, `pthread_attr_setstacksize` left out. -/
def InitArgs.OthersSucceed (args : InitArgs) : Prop :=
  args.natives.attrInit = .success ∧ args.natives.attrGetschedparam = .success ∧
    args.natives.attrSetschedpolicy = .success ∧
    args.natives.attrSetschedparam args.prio = .success ∧ args.natives.create.1 = .success

/-- Every thread is created on a host with that minimum. -/
def OnHost (PTHREAD_STACK_MIN : ℕ) (_ : OsTasks (PosixTasks τ) τ) : PosixCall τ → Prop
  | .start _ args _ => HonoursStackMin PTHREAD_STACK_MIN args.natives
  | .restart _ args _ => HonoursStackMin PTHREAD_STACK_MIN args.natives
  | .remove _ _ _ => True

theorem ofInt_natCast (n : ℕ) : UInt8.ofInt n = UInt8.ofNat n := by
  rw [← UInt8.toNat_inj]
  simp only [UInt8.ofInt, UInt8.toNat_ofNat']
  omega

/-- `s_task_count` is what the port's calls count. -/
theorem taskCount_counted {P : OsTasks (PosixTasks τ) τ → PosixCall τ → Prop} :
    (taskPort PTHREAD_STACK_MIN τ).Counts (fun s => s.taskCount = 0) P
      PosixTasks.taskCount where
  unused _ hzero := hzero
  taken _ _ _ _ _ _ hinit := (posTaskInit_spec hinit).2
  given _ _ _ _ _ _ _ hremove := taskCount_posTaskRemove hremove

/-- `Start` succeeds exactly if it is given a function and all native calls succeed. -/
theorem start_eq_ok {s : OsTasks (PosixTasks τ) τ} :
    ((taskPort PTHREAD_STACK_MIN τ).start s t args).1 = .ok ↔
      args.hasFunc = true ∧ args.natives.attrSetstacksize
        (clampStackSize PTHREAD_STACK_MIN args.stackSize).toNat = .success ∧
      args.OthersSucceed := by
  rw [TaskPort.start_fst]
  calc (posTaskInit PTHREAD_STACK_MIN s.port (some t) args).1 = .ok
      ↔ args.hasFunc = true ∧ setAttributes PTHREAD_STACK_MIN args = .ok () ∧
          args.natives.create.1 = .success := (posTaskInit_spec rfl).1
    _ ↔ args.hasFunc = true ∧ args.natives.attrSetstacksize
          (clampStackSize PTHREAD_STACK_MIN args.stackSize).toNat = .success ∧
        args.OthersSucceed := by
        rw [setAttributes_eq_ok]
        unfold InitArgs.OthersSucceed
        tauto

/-- Where the minimum does not fit 16 bits, the size asked for is below it. -/
theorem start_ne_ok {s : OsTasks (PosixTasks τ) τ} (hlarge : UInt16.size ≤ PTHREAD_STACK_MIN)
    (hhost : HonoursStackMin PTHREAD_STACK_MIN args.natives) :
    ((taskPort PTHREAD_STACK_MIN τ).start s t args).1 ≠ .ok := by
  intro hok
  obtain ⟨-, hsize, -⟩ := start_eq_ok.mp hok
  exact Nat.not_lt.mpr hlarge ((le_clampStackSize_iff _).mp ((hhost _).mp hsize))

/-- Where it fits, the size is one that the host accepts, and what is left to go wrong is the other
calls. -/
theorem start_eq_ok_iff {s : OsTasks (PosixTasks τ) τ} (hfits : PTHREAD_STACK_MIN < UInt16.size)
    (hhost : HonoursStackMin PTHREAD_STACK_MIN args.natives) :
    ((taskPort PTHREAD_STACK_MIN τ).start s t args).1 = .ok ↔
      args.hasFunc = true ∧ args.OthersSucceed := by
  have hsize : args.natives.attrSetstacksize
      (clampStackSize PTHREAD_STACK_MIN args.stackSize).toNat = .success :=
    (hhost _).mpr ((le_clampStackSize_iff args.stackSize).mpr hfits)
  rw [start_eq_ok, and_iff_right hsize]

/-- Objects that cannot be started never are. -/
theorem not_inited_of_large (hlarge : UInt16.size ≤ PTHREAD_STACK_MIN)
    {s : OsTasks (PosixTasks τ) τ}
    (h : (posixOsTasks PTHREAD_STACK_MIN τ).ReachableWhen (OnHost PTHREAD_STACK_MIN) s) :
    ∀ t, s.inited t = false := by
  obtain ⟨cs, hrun⟩ := h
  induction hrun with
  | start hinit => exact hinit.2
  | step _ hcond hstep hnone =>
    cases hstep with
    | start _ hcall =>
      have herr : ‹PosError› ≠ .ok := by
        rintro rfl
        exact start_ne_ok hlarge hcond (congrArg Prod.fst hcall)
      rw [(TaskPort.start_eq hcall).2, if_neg herr]
      exact hnone
    | restart ht => simp [hnone] at ht
    | remove hcall =>
      rcases TaskPort.remove_cases hcall with ⟨ht, -, -⟩ | ⟨-, -, rfl⟩
      · simp [hnone] at ht
      · exact hnone

/-- **What is counted**, in every run and whatever native calls fail: `s_task_count` is the number
of started objects and of successful restarts so far, and `pos_task_count` returns 8 bits of it.
Where `pthread_attr_setstacksize` honours `PTHREAD_STACK_MIN` (`HonoursStackMin`), no `Start`
succeeds and no object is ever started if that minimum does not fit 16 bits. If it does, `Start`
succeeds exactly if it is given a function and the other native calls succeed, with any stack
size. -/
theorem osTask_count {s : OsTasks (PosixTasks τ) τ} {cs : List (PosixCall τ)}
    (hrun : (posixOsTasks PTHREAD_STACK_MIN τ).Run (fun _ _ => True) cs s) :
    (s.port.taskCount = {t | s.inited t = true}.ncard + cs.countP OsTaskCall.restarts ∧
      posTaskCount s.port =
        UInt8.ofNat ({t | s.inited t = true}.ncard + cs.countP OsTaskCall.restarts)) ∧
    (UInt16.size ≤ PTHREAD_STACK_MIN →
      (∀ t args, HonoursStackMin PTHREAD_STACK_MIN args.natives →
        ((taskPort PTHREAD_STACK_MIN τ).start s t args).1 ≠ .ok) ∧
      ((posixOsTasks PTHREAD_STACK_MIN τ).Run (OnHost PTHREAD_STACK_MIN) cs s →
        ∀ t, s.inited t = false)) ∧
    (PTHREAD_STACK_MIN < UInt16.size → ∀ t args,
      HonoursStackMin PTHREAD_STACK_MIN args.natives →
      (((taskPort PTHREAD_STACK_MIN τ).start s t args).1 = .ok ↔
        args.hasFunc = true ∧ args.OthersSucceed)) := by
  have hcensus : s.port.taskCount =
      ({t | s.inited t = true}.ncard : ℤ) + cs.countP OsTaskCall.restarts :=
    (taskCount_counted.census hrun).2
  refine ⟨⟨hcensus, ?_⟩, fun hlarge => ⟨?_, ?_⟩, ?_⟩
  · rw [posTaskCount, hcensus, ← Nat.cast_add, ofInt_natCast]
  · intro t args hhost
    exact start_ne_ok hlarge hhost
  · intro hhost
    exact not_inited_of_large hlarge ⟨cs, hhost⟩
  · intro hfits t args hhost
    exact start_eq_ok_iff hfits hhost

/-- What a host with a minimum of 16 KiB answers. -/
def hostNatives : InitNatives where
  attrInit := .success
  attrGetschedparam := .success
  attrSetschedpolicy := .success
  attrSetstacksize n := if 16384 ≤ n then .success else .EINVAL
  attrSetschedparam _ := .success
  create := (.success, 1)

theorem honoursStackMin_host : HonoursStackMin 16384 hostNatives := by
  intro n
  simp only [hostNatives]
  split <;> simp [*]

/-- An object is started twice and removed once, on such a host: one thread is left that nobody
can remove. Between the two starts `pthread_create` has failed. -/
theorem osTask_count_left :
    ∃ (s : OsTasks (PosixTasks Bool) Bool) (cs : List (PosixCall Bool)),
      (posixOsTasks 16384 Bool).Run (OnHost 16384) cs s ∧ s.inited true = false ∧
      posTaskCount s.port = 1 ∧ cs.countP OsTaskCall.restarts = 1 ∧
      (s.port.taskCount = {t | s.inited t = true}.ncard + cs.countP OsTaskCall.restarts ∧
        posTaskCount s.port =
          UInt8.ofNat ({t | s.inited t = true}.ncard + cs.countP OsTaskCall.restarts)) ∧
      (UInt16.size ≤ 16384 →
        (∀ t args, HonoursStackMin 16384 args.natives →
          ((taskPort 16384 Bool).start s t args).1 ≠ .ok) ∧
        ((posixOsTasks 16384 Bool).Run (OnHost 16384) cs s → ∀ t, s.inited t = false)) ∧
      (16384 < UInt16.size → ∀ t args, HonoursStackMin 16384 args.natives →
        (((taskPort 16384 Bool).start s t args).1 = .ok ↔
          args.hasFunc = true ∧ args.OthersSucceed)) := by
  let args : InitArgs := { hasFunc := true, prio := 1, stackSize := 1024, natives := hostNatives }
  let failing : InitArgs := { args with natives := { hostNatives with create := (.other 11, 0) } }
  have h0 : (posixOsTasks 16384 Bool).Run (OnHost 16384) []
      { port := { taskCount := 0, handle := fun _ => 0 }, inited := fun _ => false } :=
    .start ⟨rfl, fun _ => rfl⟩
  have h1 := h0.next (.start true args _) honoursStackMin_host (.start rfl rfl)
  have h2 := h1.next (.start false failing _) honoursStackMin_host (.start rfl rfl)
  have h3 := h2.next (.restart true args _) honoursStackMin_host (.restart rfl rfl)
  have h4 := h3.next (.remove true (fun _ => .success) _) trivial (.remove rfl)
  exact ⟨_, _, h4, rfl, by decide, by decide, osTask_count (h4.mono fun _ _ _ => trivial)⟩

end Poski.Posix
