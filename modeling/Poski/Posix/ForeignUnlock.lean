import Poski.Posix.OsMutex

/-!
# A Mutex Unlocked by Others

`Unlock` called by a task that does not own the mutex. The call decrements the depth before
the native mutex refuses it, and puts the depth back afterwards. In between, the depth is
too small for everybody else.

- `owner_assertion_fails` : the owner's own `Unlock` finds depth zero
- `CountLeft` : the calls between their two writes do not make up the native count
- `foreign_unlock_harmless` : every run, and the runs in which the assertion is executed
  under `CountLeft`
-/

namespace Poski.Posix.OsMutex

open Lib

variable {ι : Type} [DecidableEq ι] {b : Build} {s s' : State ι}

/-! ## The defect -/

/-- `Unlock` is called by the owner, or while another task owns the mutex. -/
def WhileOwned (s : State ι) : Act ι → Prop
  | .callUnlock _ => s.mutex.owner ≠ none
  | _ => True

/-- A foreign `Unlock` has decremented the depth when the owner's assertion reads it. -/
theorem owner_assertion_fails :
    ¬∀ (s s' : State Bool) (t : Bool), (osMutex ⟨false⟩ Bool).ReachableWhen WhileOwned s →
      s.mutex.owner = some t → (osMutex ⟨false⟩ Bool).step s (.check t) s' →
        s'.aborted = false := by
  intro halways
  have h0 : (osMutex ⟨false⟩ Bool).Run WhileOwned []
      { mutex := .free, lockDepth := 0, pc := fun _ => .idle, aborted := false } :=
    .start ⟨⟨true, false, rfl⟩, fun _ => rfl, rfl⟩
  have h1 := h0.next (.callLock true) trivial ⟨rfl, .callLock rfl⟩
  have h2 := h1.next (.lock true .ok) trivial ⟨rfl, .lock rfl rfl⟩
  have h3 := h2.next (.increment true) trivial ⟨rfl, .increment rfl⟩
  have h4 := h3.next (.return true .ok) trivial ⟨rfl, .returnLock rfl⟩
  -- the other task decrements, and its native unlock is still to come
  have h5 := h4.next (.callUnlock false) (Option.some_ne_none true) ⟨rfl, .callUnlock rfl⟩
  have h6 := h5.next (.check false) trivial ⟨rfl, .check rfl rfl⟩
  have h7 := h6.next (.decrement false) trivial ⟨rfl, .decrement rfl⟩
  -- the owner finds depth zero
  have h8 := h7.next (.callUnlock true) (Option.some_ne_none true) ⟨rfl, .callUnlock rfl⟩
  have hnot := halways _ _ true ⟨_, h8⟩ rfl ⟨rfl, .checkFails rfl rfl⟩
  cases hnot

/-! ## Where it is harmless -/

/-- When the assertion of an `Unlock` is executed, the calls that stand between their two
writes do not make up the whole native count. -/
def CountLeft (b : Build) (s : State ι) : Act ι → Prop
  | .check _ =>
    b.ndebug = true ∨ population Pc.ahead s.pc % 2 ^ 32 ≠ s.mutex.count % 2 ^ 32
  | _ => True

omit [DecidableEq ι] in
/-- The depth is what is left of the native count. -/
theorem Inv.depth_pos_iff (hinv : Inv s) :
    0 < s.lockDepth ↔ population Pc.ahead s.pc % 2 ^ 32 ≠ s.mutex.count % 2 ^ 32 := by
  have hbalance := hinv.balance
  have hlt := s.lockDepth.toNat_lt
  rw [UInt32.lt_iff_toNat_lt, UInt32.toNat_zero]
  omega

/-- The assertion fails exactly where the condition does. -/
theorem check_aborts_iff (hinv : Inv s) {t : ι} (h : (osMutex b ι).step s (.check t) s') :
    s'.aborted = true ↔ ¬CountLeft b s (.check t) := by
  obtain ⟨hbefore, h⟩ := h
  rw [CountLeft, ← hinv.depth_pos_iff]
  cases h
  case check owns hassert hpc =>
    rw [Build.assert_eq_ok, decide_eq_true_iff] at hassert
    simp [State.goto, hbefore, hassert]
  case checkFails owns hassert hpc =>
    obtain ⟨⟨hn, hzero⟩, -⟩ := Build.assert_eq_error.mp hassert
    rw [decide_eq_false_iff_not] at hzero
    simp [hn, hzero]

/-- A foreign `Unlock` is never blocked. -/
theorem foreign_enabled (hrunning : s.aborted = false) {t : ι}
    (hforeign : (s.pc t).foreign = true) : ∃ a s', a.actor = t ∧ (osMutex b ι).step s a s' := by
  cases hpc : s.pc t with
  | check owns =>
    cases hassert : b.assert (0 < s.lockDepth) with
    | ok => exact ⟨.check t, _, rfl, hrunning, .check hpc hassert⟩
    | error e =>
      obtain ⟨-, rfl⟩ := Build.assert_eq_error.mp hassert
      exact ⟨.check t, _, rfl, hrunning, .checkFails hpc hassert⟩
  | decrement owns => exact ⟨.decrement t, _, rfl, hrunning, .decrement hpc⟩
  | unlock owns =>
    by_cases hok : (posMutexUnlock s.mutex t).1 = .ok
    · exact ⟨.unlock t .ok, _, rfl, hrunning, .unlock hpc (Prod.ext hok rfl)⟩
    · exact ⟨.unlock t _, _, rfl, hrunning, .unlockFails hpc rfl hok⟩
  | revert owns err => exact ⟨.revert t, _, rfl, hrunning, .revert hpc⟩
  | unlockExit owns err => exact ⟨.return t err, _, rfl, hrunning, .returnUnlock hpc⟩
  | _ =>
    rw [hpc] at hforeign
    cases hforeign

/-- A foreign `Unlock` returns an error. -/
theorem foreign_returns (hinv : Inv s) {t : ι} {err : PosError}
    (hforeign : (s.pc t).foreign = true) (h : (osMutex b ι).step s (.return t err) s') :
    err ≠ .ok := by
  have hconsistent := hinv.consistent t
  obtain ⟨-, h⟩ := h
  cases h
  case returnLock hpc =>
    rw [hpc] at hforeign
    cases hforeign
  case returnUnlock owns hpc =>
    rw [hpc] at hforeign hconsistent
    intro hok
    rw [Pc.foreign, hconsistent.mp hok] at hforeign
    cases hforeign

/-- In the runs under `CountLeft` no assertion fails. -/
theorem aborted_eq_false (hreach : (osMutex b ι).ReachableWhen (CountLeft b) s) :
    s.aborted = false := by
  have hinv : Inv s ∧ s.aborted = false := by
    refine hreach.invariant (I := fun s => Inv s ∧ s.aborted = false) ?_ ?_
    · exact fun s hinit => ⟨Inv.start hinit, hinit.2.2⟩
    · intro s a s' hinv hcond hstep
      refine ⟨hinv.1.step hstep.2, ?_⟩
      obtain ⟨hbefore, h⟩ := hstep
      cases h
      case checkFails t owns hpc hassert =>
        -- the only step that aborts, and the condition excludes it
        rw [← Bool.not_eq_true, check_aborts_iff hinv.1 ⟨hbefore, .checkFails hpc hassert⟩,
          not_not]
        exact hcond
      all_goals exact hbefore
  exact hinv.2

/-- **A foreign `Unlock` is harmless** in every run that executes the assertion of `Unlock`
only under `CountLeft`: no assertion fails, and the foreign `Unlock` runs to its end. In
every run whatsoever the depth is the native count whenever no call is in progress, a
foreign `Unlock` that returns has an error, and the assertion fails exactly where
`CountLeft` does not hold. -/
theorem foreign_unlock_harmless (hreach : (osMutex b ι).Reachable s) :
    ((∀ t, s.pc t = .idle) → s.lockDepth.toNat = s.mutex.count) ∧
    (∀ t err s', (s.pc t).foreign = true → (osMutex b ι).step s (.return t err) s' →
      err ≠ .ok) ∧
    (∀ t s', (osMutex b ι).step s (.check t) s' →
      (s'.aborted = true ↔ ¬CountLeft b s (.check t))) ∧
    ((osMutex b ι).ReachableWhen (CountLeft b) s → s.aborted = false ∧
      ∀ t, (s.pc t).foreign = true → ∃ a s', a.actor = t ∧ (osMutex b ι).step s a s') := by
  have hinv : Inv s := hreach.invariant (I := Inv) (fun s => Inv.start)
    fun s a s' hinv _ hstep => hinv.step hstep.2
  refine ⟨fun hidle => ?_, fun t err s' => foreign_returns hinv,
    fun t s' => check_aborts_iff hinv, fun hwhen => ?_⟩
  · apply hinv.depth_eq_count
    intro t
    rw [hidle t]
    rfl
  · -- what the foreign task is about to do needs nobody else
    have hrunning := aborted_eq_false hwhen
    exact ⟨hrunning, fun t => foreign_enabled hrunning⟩

/-- The owner has locked the mutex twice; it and another task unlock at the same time. -/
theorem foreign_unlock_harmless_nested :
    ∃ s : State Bool, s.pc true = .decrement true ∧ s.pc false = .unlockExit false .errPriv ∧
      (s.aborted = false ∧
        ∀ t, (s.pc t).foreign = true → ∃ a s', a.actor = t ∧ (osMutex ⟨false⟩ Bool).step s a s') ∧
      (∀ t err s', (s.pc t).foreign = true → (osMutex ⟨false⟩ Bool).step s (.return t err) s' →
        err ≠ .ok) ∧
      ∀ t s', (osMutex ⟨false⟩ Bool).step s (.check t) s' →
        (s'.aborted = true ↔ ¬CountLeft ⟨false⟩ s (.check t)) := by
  have h0 : (osMutex ⟨false⟩ Bool).Run (CountLeft ⟨false⟩) []
      { mutex := .held true 0, lockDepth := 1, pc := fun _ => .idle, aborted := false } :=
    .start ⟨⟨true, true, rfl⟩, fun _ => rfl, rfl⟩
  have h1 := h0.next (.callLock true) trivial ⟨rfl, .callLock rfl⟩
  have h2 := h1.next (.lock true .ok) trivial ⟨rfl, .lock rfl rfl⟩
  have h3 := h2.next (.increment true) trivial ⟨rfl, .increment rfl⟩
  have h4 := h3.next (.return true .ok) trivial ⟨rfl, .returnLock rfl⟩
  -- one call is ahead by one, and the native count is two
  have h5 := h4.next (.callUnlock false) trivial ⟨rfl, .callUnlock rfl⟩
  have h6 := h5.next (.check false) (.inr (by rw [population_eq_card]; decide))
    ⟨rfl, .check rfl rfl⟩
  have h7 := h6.next (.decrement false) trivial ⟨rfl, .decrement rfl⟩
  have h8 := h7.next (.callUnlock true) trivial ⟨rfl, .callUnlock rfl⟩
  have h9 := h8.next (.check true) (.inr (by rw [population_eq_card]; decide))
    ⟨rfl, .check rfl rfl⟩
  -- the foreign unlock is refused, and its decrement taken back
  have h10 := h9.next (.unlock false .errPriv) trivial
    ⟨rfl, .unlockFails rfl rfl (by decide)⟩
  have h11 := h10.next (.revert false) trivial ⟨rfl, .revert rfl⟩
  have hreach : (osMutex ⟨false⟩ Bool).Reachable _ := ⟨_, h11.mono fun _ _ _ => trivial⟩
  obtain ⟨-, hreturns, hchecks, hharmless⟩ := foreign_unlock_harmless hreach
  exact ⟨_, rfl, rfl, hharmless ⟨_, h11⟩, hreturns, hchecks⟩

end Poski.Posix.OsMutex
