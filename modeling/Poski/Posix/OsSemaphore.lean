import Mathlib.Logic.Function.Basic
import Poski.Lib.Population
import Poski.Lib.TransitionSystem
import Poski.Posix.Semaphore

/-!
# The Semaphore Class

`OsSemaphore` of `OsSemaphore.h` over a POSIX semaphore. The object counts in `take_depth_`
how many more times it has been taken than given: `Take` increments the depth after the
native semaphore is taken, `Give` decrements it after the native semaphore is given.

## Main results

- `Inv` : tokens are conserved, where the calls between their two writes are counted in
- `destruct_eq_ok` : the loop of the destructor
- `tokens_conserved` : what holds whenever no call is in progress
-/

namespace Poski.Posix

open Lib

universe u

/-! ## The object -/

/-- `class OsSemaphore`: the native semaphore and `take_depth_`. -/
structure OsSemaphore where
  sem : SemT
  takeDepth : Int32

namespace OsSemaphore

/-- The constructor. -/
def construct (b : Build) (looksFirst : Bool) (clock : Option ClockReading)
    (initialTokens : UInt16) (takeOnConstruction : Bool) (timeout : UInt32) :
    Except Halt OsSemaphore := do
  let (err, sem) := posSemInit initialTokens
  b.assert (err = .ok)
  match sem with
  -- not initialised, and the object is of no use
  | none => .error .nullDeref
  | some sem =>
    if takeOnConstruction then
      let (err, sem) ← posSemTake looksFirst clock sem timeout
      b.assert (err = .ok)
      pure { sem := sem, takeDepth := 1 }
    else
      pure { sem := sem, takeDepth := 0 }

/-- What the object has taken on construction is counted in its depth. -/
theorem tokens_of_construct {looksFirst : Bool} {clock : Option ClockReading}
    {initialTokens : UInt16} {takeOnConstruction : Bool} {timeout : UInt32} {m : OsSemaphore}
    (h : construct ⟨false⟩ looksFirst clock initialTokens takeOnConstruction timeout = .ok m) :
    (m.sem.count : ℤ) + m.takeDepth.toInt = initialTokens.toNat := by
  obtain ⟨sem, hinit, hcount⟩ := posSemInit_eq initialTokens
  simp only [construct, hinit, decide_true, Build.assert_true] at h
  obtain ⟨_, -, h⟩ := bind_eq_ok.mp h
  cases takeOnConstruction with
  | false =>
    cases h
    simp [hcount]
  | true =>
    obtain ⟨⟨err, sem'⟩, htake, h⟩ := bind_eq_ok.mp h
    obtain ⟨_, hassert, h⟩ := bind_eq_ok.mp h
    cases h
    have hok : err = .ok := by simpa [Build.assert_eq_ok] using hassert
    have htaken := posSemTake_eq_ok (hok ▸ htake)
    simp only [show Int32.toInt 1 = 1 from rfl]
    omega

/-- A positive depth is decremented without a wrap. -/
theorem toInt_sub_one {d : Int32} (hpos : 0 < d) : (d - 1).toInt = d.toInt - 1 := by
  have hlt := d.toInt_lt
  rw [Int32.lt_iff_toInt_lt, Int32.toInt_zero] at hpos
  rw [Int32.toInt_sub, Int32.toInt_one, Int.bmod_def]
  split <;> omega

/-- The destructor: `while (take_depth_ > 0)`. -/
def destruct (b : Build) (m : OsSemaphore) : Except Halt OsSemaphore :=
  if 0 < m.takeDepth then do
    let r := posSemGive m.sem
    b.assert (r.1 = .ok)
    destruct b { sem := r.2, takeDepth := m.takeDepth - 1 }
  else .ok m
termination_by m.takeDepth.toInt.toNat
decreasing_by
  rename_i hpos
  have hsub := toInt_sub_one hpos
  rw [Int32.lt_iff_toInt_lt, Int32.toInt_zero] at hpos
  omega

/-- **The destructor's loop**: it ends, no assertion of it fails, and it gives the semaphore
back its `n` tokens, unless it has more already. -/
theorem destruct_eq_ok (b : Build) {m : OsSemaphore} {n : ℕ} (hn : n ≤ SEM_VALUE_MAX)
    (htokens : (m.sem.count : ℤ) + m.takeDepth.toInt = n) :
    ∃ m', m.destruct b = .ok m' ∧ m'.sem.count = max m.sem.count n := by
  induction m using destruct.induct with
  | case1 m hpos r ih =>
    rw [destruct, if_pos hpos]
    have hsub := toInt_sub_one hpos
    rw [Int32.lt_iff_toInt_lt, Int32.toInt_zero] at hpos
    -- the depth is positive, so tokens are missing and the native give succeeds
    have hlt : m.sem.count < SEM_VALUE_MAX := by omega
    have hr : r = (.ok, ⟨m.sem.count + 1, hlt⟩) := posSemGive_of_lt hlt
    simp only [hr] at ih
    obtain ⟨m', hdestruct, hcount⟩ := ih (by rw [hsub]; push_cast; omega)
    refine ⟨m', ?_, by omega⟩
    simp only [posSemGive_of_lt hlt, decide_true, Build.assert_true]
    exact hdestruct
  | case2 m hnonpos =>
    rw [destruct, if_neg hnonpos]
    rw [Int32.lt_iff_toInt_lt, Int32.toInt_zero] at hnonpos
    exact ⟨m, rfl, by omega⟩

/-! ## The machine -/

/-- Where a task stands in `Take` or `Give`. -/
inductive Pc where
  | idle
  | take
  | increment
  | takeExit (err : PosError)
  | give
  | decrement
  | giveExit (err : PosError)
  deriving DecidableEq, Repr

/-- What can happen in a step; `t` is the task it happens to. -/
inductive Act (ι : Type u) where
  | callTake (t : ι)
  | take (t : ι) (err : PosError)
  | increment (t : ι)
  | callGive (t : ι)
  | give (t : ι) (err : PosError)
  | decrement (t : ι)
  | return (t : ι) (err : PosError)

variable {ι : Type u}

/-- The task that a step happens to. -/
def Act.actor : Act ι → ι
  | .callTake t | .take t _ | .increment t | .callGive t | .give t _ | .decrement t
  | .return t _ => t

/-- The object and the tasks that use it. -/
structure State (ι : Type u) extends OsSemaphore where
  pc : ι → Pc

variable [DecidableEq ι]

/-- Task `t` goes to `p`. -/
def State.goto (s : State ι) (t : ι) (p : Pc) : State ι :=
  { s with pc := Function.update s.pc t p }

/-- One step of one task. The constructors follow the statements of the source. -/
inductive Step : State ι → Act ι → State ι → Prop where
  | callTake {s : State ι} {t : ι} (hpc : s.pc t = .idle) :
      Step s (.callTake t) (s.goto t .take)
  -- `err = pos_sem_take(&sem_, timeout)`, granted
  | take {s : State ι} {t : ι} {sem : SemT} (hpc : s.pc t = .take)
      (htake : s.sem.take = some sem) :
      Step s (.take t .ok) ({ s with sem := sem }.goto t .increment)
  -- or given up, at any time and with any code
  | takeFails {s : State ι} {t : ι} {err : PosError} (hpc : s.pc t = .take) (herr : err ≠ .ok) :
      Step s (.take t err) (s.goto t (.takeExit err))
  -- `take_depth_++`
  | increment {s : State ι} {t : ι} (hpc : s.pc t = .increment) :
      Step s (.increment t)
        ({ s with takeDepth := s.takeDepth + 1 }.goto t (.takeExit .ok))
  | callGive {s : State ι} {t : ι} (hpc : s.pc t = .idle) :
      Step s (.callGive t) (s.goto t .give)
  -- `err = pos_sem_give(&sem_)`
  | give {s : State ι} {t : ι} {sem : SemT} (hpc : s.pc t = .give)
      (hgive : posSemGive s.sem = (.ok, sem)) :
      Step s (.give t .ok) ({ s with sem := sem }.goto t .decrement)
  | giveFails {s : State ι} {t : ι} {sem : SemT} {err : PosError} (hpc : s.pc t = .give)
      (hgive : posSemGive s.sem = (err, sem)) (herr : err ≠ .ok) :
      Step s (.give t err) ({ s with sem := sem }.goto t (.giveExit err))
  -- `take_depth_--`
  | decrement {s : State ι} {t : ι} (hpc : s.pc t = .decrement) :
      Step s (.decrement t)
        ({ s with takeDepth := s.takeDepth - 1 }.goto t (.giveExit .ok))
  -- `return err`
  | returnTake {s : State ι} {t : ι} {err : PosError} (hpc : s.pc t = .takeExit err) :
      Step s (.return t err) (s.goto t .idle)
  | returnGive {s : State ι} {t : ι} {err : PosError} (hpc : s.pc t = .giveExit err) :
      Step s (.return t err) (s.goto t .idle)

/-- An object that its constructor has returned, all assertions having passed, and that
nobody has used yet. -/
def osSemaphore (initialTokens : UInt16) (ι : Type u) [DecidableEq ι] :
    TransitionSystem (State ι) (Act ι) where
  init s := (∃ looksFirst clock takeOnConstruction timeout,
      construct ⟨false⟩ looksFirst clock initialTokens takeOnConstruction timeout =
        .ok s.toOsSemaphore) ∧
    ∀ t, s.pc t = .idle
  step := Step

/-! ## Conservation -/

/-- The call has taken the native semaphore and has not counted it yet. -/
def Pc.taken : Pc → Bool
  | .increment => true
  | _ => false

/-- The call has given the native semaphore and has not counted it yet. -/
def Pc.given : Pc → Bool
  | .decrement => true
  | _ => false

/-- The invariant: up to a multiple of `2 ^ 32`, the native count and the depth make up the
initial tokens, less what is taken and more what is given but not counted. -/
structure Inv (initialTokens : UInt16) (s : State ι) : Prop where
  finite_taken : (members Pc.taken s.pc).Finite
  finite_given : (members Pc.given s.pc).Finite
  conserved : ((s.sem.count : ℤ) + s.takeDepth.toInt + population Pc.taken s.pc) % 2 ^ 32 =
    ((initialTokens.toNat : ℤ) + population Pc.given s.pc) % 2 ^ 32

variable {initialTokens : UInt16} {s s' : State ι} {a : Act ι}

/-- Only the actor of a step moves. -/
theorem Step.pc_eq (h : Step s a s') :
    s'.pc = Function.update s.pc a.actor (s'.pc a.actor) := by
  cases h <;> simp [State.goto, Act.actor]

/-- A step moves a token between the native count, the depth and the calls in progress. -/
theorem Step.conserved (h : Step s a s') :
    ((s'.sem.count : ℤ) + s'.takeDepth.toInt + (s'.pc a.actor).taken.toNat +
        (s.pc a.actor).given.toNat) % 2 ^ 32 =
      ((s.sem.count : ℤ) + s.takeDepth.toInt + (s.pc a.actor).taken.toNat +
        (s'.pc a.actor).given.toNat) % 2 ^ 32 := by
  cases h
  case take t sem hpc htake =>
    have hcount := CountingSem.take_eq_some.mp htake
    simp [State.goto, Act.actor, hpc, Pc.taken, Pc.given]
    omega
  case give t sem hpc hgive =>
    have hcount := posSemGive_eq_ok.mp hgive
    simp [State.goto, Act.actor, hpc, Pc.taken, Pc.given]
    omega
  case giveFails t sem err hpc hgive herr =>
    obtain ⟨-, rfl⟩ := posSemGive_fails hgive herr
    simp [State.goto, Act.actor, hpc, Pc.taken, Pc.given]
  -- the writes to the depth
  case increment t hpc =>
    have hdepth := @Int.bmod_emod (s.takeDepth.toInt + 1) 4294967296
    simp [State.goto, Act.actor, hpc, Pc.taken, Pc.given, Int32.toInt_add]
    omega
  case decrement t hpc =>
    have hdepth := @Int.bmod_emod (s.takeDepth.toInt - 1) 4294967296
    simp [State.goto, Act.actor, hpc, Pc.taken, Pc.given, Int32.toInt_sub]
    omega
  all_goals simp [State.goto, Act.actor, Pc.taken, Pc.given, *]

theorem Inv.start (hinit : (osSemaphore initialTokens ι).init s) : Inv initialTokens s := by
  obtain ⟨⟨looksFirst, clock, takeOnConstruction, timeout, hconstruct⟩, hidle⟩ := hinit
  have htaken : members Pc.taken s.pc = ∅ := by
    simp [members, hidle, Pc.taken]
  have hgiven : members Pc.given s.pc = ∅ := by
    simp [members, hidle, Pc.given]
  refine ⟨by simp [htaken], by simp [hgiven], ?_⟩
  simp [population, htaken, hgiven, tokens_of_construct hconstruct]

theorem Inv.step (hinv : Inv initialTokens s) (h : Step s a s') : Inv initialTokens s' := by
  have htaken := population_update hinv.finite_taken a.actor (s'.pc a.actor)
  have hgiven := population_update hinv.finite_given a.actor (s'.pc a.actor)
  rw [← h.pc_eq] at htaken hgiven
  refine ⟨?_, ?_, ?_⟩
  · rw [h.pc_eq]
    exact finite_members_update hinv.finite_taken _ _
  · rw [h.pc_eq]
    exact finite_members_update hinv.finite_given _ _
  · have hlocal := h.conserved
    have hconserved := hinv.conserved
    omega

omit [DecidableEq ι] in
/-- While no call is in progress a wrap of the depth does not show: the native count lies
below `2 ^ 31`, and the tokens below `2 ^ 16`. -/
theorem Inv.tokens_eq (hinv : Inv initialTokens s) (hidle : ∀ t, s.pc t = .idle) :
    (s.sem.count : ℤ) + s.takeDepth.toInt = initialTokens.toNat := by
  have htaken : population Pc.taken s.pc = 0 :=
    (population_eq_zero hinv.finite_taken).mpr fun t => by rw [hidle t]; rfl
  have hgiven : population Pc.given s.pc = 0 :=
    (population_eq_zero hinv.finite_given).mpr fun t => by rw [hidle t]; rfl
  have hconserved := hinv.conserved
  have hcount : s.sem.count ≤ 2147483647 := s.sem.count_le
  have htokens := initialTokens.toNat_lt
  have hlow := s.takeDepth.le_toInt
  have hhigh := s.takeDepth.toInt_lt
  rw [htaken, hgiven] at hconserved
  omega

/-- **Tokens are conserved**: whenever no call is in progress, the native count and the depth
make up the initial tokens, and the destructor, run then, ends without a failed assertion
and leaves the native count at the initial tokens or where it was, if that is more. -/
theorem tokens_conserved (b : Build) (hreach : (osSemaphore initialTokens ι).Reachable s)
    (hidle : ∀ t, s.pc t = .idle) :
    (s.sem.count : ℤ) + s.takeDepth.toInt = initialTokens.toNat ∧
    ∃ m, s.toOsSemaphore.destruct b = .ok m ∧
      m.sem.count = max s.sem.count initialTokens.toNat := by
  have hinv : Inv initialTokens s :=
    hreach.invariant (fun _ => Inv.start) fun _ _ _ hinv _ hstep => hinv.step hstep
  have htokens := hinv.tokens_eq hidle
  have hle : initialTokens.toNat ≤ SEM_VALUE_MAX := by
    have hlt := initialTokens.toNat_lt
    unfold SEM_VALUE_MAX
    omega
  exact ⟨htokens, destruct_eq_ok b hle htokens⟩

/-- Two tasks give a semaphore that nobody has taken, while a take of a third call times
out: the depth ends up negative. -/
theorem tokens_conserved_surplus :
    ∃ s : State Bool, s.sem.count = 2 ∧ s.takeDepth = -2 ∧
      (s.sem.count : ℤ) + s.takeDepth.toInt = (0 : UInt16).toNat ∧
      ∃ m, s.toOsSemaphore.destruct ⟨false⟩ = .ok m ∧
        m.sem.count = max s.sem.count (0 : UInt16).toNat := by
  have h0 : (osSemaphore 0 Bool).Run (fun _ _ => True) []
      { sem := ⟨0, Nat.zero_le _⟩, takeDepth := 0, pc := fun _ => .idle } :=
    .start ⟨⟨true, none, false, 0, rfl⟩, fun _ => rfl⟩
  have h1 := h0.next (.callTake false) trivial (.callTake rfl)
  have h2 := h1.next (.callGive true) trivial (.callGive rfl)
  have h3 := h2.next (.take false .timeout) trivial (.takeFails rfl (by decide))
  have h4 := h3.next (.give true .ok) trivial (.give rfl rfl)
  have h5 := h4.next (.return false .timeout) trivial (.returnTake rfl)
  have h6 := h5.next (.callGive false) trivial (.callGive rfl)
  have h7 := h6.next (.give false .ok) trivial (.give rfl rfl)
  have h8 := h7.next (.decrement true) trivial (.decrement rfl)
  have h9 := h8.next (.decrement false) trivial (.decrement rfl)
  have h10 := h9.next (.return true .ok) trivial (.returnGive rfl)
  have h11 := h10.next (.return false .ok) trivial (.returnGive rfl)
  exact ⟨_, rfl, rfl, tokens_conserved ⟨false⟩ ⟨_, h11⟩ fun t => by cases t <;> rfl⟩

end OsSemaphore

end Poski.Posix
