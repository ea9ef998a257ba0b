import Poski.Posix.OsMutex

/-!
# A Mutex Unlocked by Its Owner

Runs of `OsMutex` in which a task calls `Unlock` only while it owns the mutex. Then every
write to the depth is made by the owner, although nothing but the native mutex protects
the depth: `Lock` writes it after the native lock, `Unlock` before the native unlock.

- `OwnerUnlocks` : the condition on the steps of such a run
- `ahead_owner` : who stands between two writes owns the mutex
- `depth_tracks_owner` : depth and native count
-/

namespace Poski.Posix.OsMutex

open Lib

variable {ι : Type} [DecidableEq ι] {b : Build} {s s' : State ι} {a : Act ι}

/-- A task calls `Unlock` only while it owns the mutex. -/
def OwnerUnlocks (s : State ι) : Act ι → Prop
  | .callUnlock t => s.mutex.owner = some t
  | _ => True

/-- Only a call can put a task into an `Unlock` of a mutex that it does not own. -/
theorem Step.foreign_actor (h : Step b s a s') (hcond : OwnerUnlocks s a)
    (hbefore : (s.pc a.actor).foreign = false) : (s'.pc a.actor).foreign = false := by
  cases h
  case callUnlock t hpc =>
    have howner : s.mutex.owner = some t := hcond
    simp [State.goto, Act.actor, Pc.foreign, howner]
  case checkFails => exact hbefore
  case check | decrement | unlock | unlockFails | revert =>
    simpa [State.goto, Act.actor, Pc.foreign, *] using hbefore
  all_goals simp [State.goto, Act.actor, Pc.foreign]

omit [DecidableEq ι] in
/-- The calls that stand between their two writes are the owner's. -/
theorem ahead_owner (hinv : Inv s) (howned : ∀ t, (s.pc t).foreign = false) {t : ι}
    (hahead : (s.pc t).ahead = true) : s.mutex.owner = some t := by
  have howned := howned t
  have hconsistent := hinv.consistent t
  have howns := hinv.owns t true
  cases hpc : s.pc t with
  | increment =>
    rw [hpc] at howns
    exact (howns rfl).mp rfl
  | unlock owns =>
    rw [hpc, Pc.foreign, Bool.not_eq_false'] at howned
    rw [hpc, howned] at howns
    exact (howns rfl).mp rfl
  | revert owns err =>
    -- a revert follows a refused native unlock, and the owner is not refused
    rw [hpc] at howned hconsistent
    simp [Pc.foreign, hconsistent.1] at howned
  | _ =>
    rw [hpc] at hahead
    simp [Pc.ahead] at hahead

/-- The states of a run in which only owners unlock. -/
theorem inv_of_ownerUnlocks (hreach : (osMutex b ι).ReachableWhen OwnerUnlocks s) :
    Inv s ∧ ∀ t, (s.pc t).foreign = false := by
  refine hreach.invariant (I := fun s => Inv s ∧ ∀ t, (s.pc t).foreign = false) ?_ ?_
  · intro s hinit
    refine ⟨Inv.start hinit, fun t => ?_⟩
    rw [hinit.2.1 t]
    rfl
  · intro s a s' hinv hcond hstep
    obtain ⟨hinv, howned⟩ := hinv
    refine ⟨hinv.step hstep.2, fun t => ?_⟩
    rcases eq_or_ne t a.actor with rfl | hne
    · exact hstep.2.foreign_actor hcond (howned _)
    · rw [hstep.2.pc_eq, Function.update_of_ne hne]
      exact howned t

omit [DecidableEq ι] in
/-- While the owner, if any, stands where it writes nothing, the depth is the native count. -/
theorem depth_of_owner (hinv : Inv s) (howned : ∀ t, (s.pc t).foreign = false)
    (hnot : ∀ t, s.mutex.owner = some t → (s.pc t).ahead = false) :
    s.lockDepth.toNat = s.mutex.count := by
  apply hinv.depth_eq_count
  intro t
  cases hahead : (s.pc t).ahead with
  | false => rfl
  | true =>
    have hwrites := hnot t (ahead_owner hinv howned hahead)
    exact hahead.symm.trans hwrites

omit [DecidableEq ι] in
/-- At the assertion of an `Unlock` the depth is the count of a mutex that is held. -/
theorem depth_pos_of_check (hinv : Inv s) (howned : ∀ t, (s.pc t).foreign = false) {t : ι}
    {owns : Bool} (hpc : s.pc t = .check owns) : 0 < s.lockDepth := by
  have htrue : owns = true := by
    have := howned t
    rw [hpc, Pc.foreign, Bool.not_eq_false'] at this
    exact this
  have howner : s.mutex.owner = some t :=
    (hinv.owns t owns (by rw [hpc]; rfl)).mp htrue
  have hdepth : s.lockDepth.toNat = s.mutex.count := by
    refine depth_of_owner hinv howned fun u hu => ?_
    rw [Option.some_inj.mp (hu.symm.trans howner), hpc]
    rfl
  rw [UInt32.lt_iff_toNat_lt, hdepth, UInt32.toNat_zero, Nat.pos_iff_ne_zero]
  intro hzero
  rw [RecLock.count_eq_zero.mp hzero] at howner
  cases howner

/-- The assertion holds whenever it is executed, so no run is aborted. -/
theorem not_aborted (hreach : (osMutex b ι).ReachableWhen OwnerUnlocks s) :
    s.aborted = false := by
  obtain ⟨as, hrun⟩ := hreach
  cases hrun with
  | start hinit => exact hinit.2.2
  | step hrun hcond hstep =>
    obtain ⟨hinv, howned⟩ := inv_of_ownerUnlocks ⟨_, hrun⟩
    obtain ⟨hbefore, hstep⟩ := hstep
    cases hstep
    case checkFails t owns hpc hassert =>
      have hpos := depth_pos_of_check hinv howned hpc
      rw [decide_eq_true hpos, Build.assert_true] at hassert
      cases hassert
    all_goals exact hbefore

/-- **The depth tracks the native count** in every run in which only the owner calls
`Unlock`: the assertion of `Unlock` holds wherever a task stands at it, a free mutex has
depth zero, the depth is the native count while the owner is in neither method, and the
destructor, run by the owner or on a free mutex, ends with the mutex unlocked. -/
theorem depth_tracks_owner (hreach : (osMutex b ι).ReachableWhen OwnerUnlocks s) :
    (s.aborted = false ∧ ∀ t owns, s.pc t = .check owns → 0 < s.lockDepth) ∧
    (s.mutex = .free → s.lockDepth = 0) ∧
    (∀ owner, s.mutex.owner = some owner → s.pc owner = .idle →
      s.lockDepth.toNat = s.mutex.count) ∧
    ∀ self, (∀ t, s.pc t = .idle) → s.mutex = .free ∨ s.mutex.owner = some self →
      ∃ m, s.toOsMutex.destruct b self = .ok m ∧ m.mutex.count = 0 ∧ m.lockDepth = 0 := by
  obtain ⟨hinv, howned⟩ := inv_of_ownerUnlocks hreach
  refine ⟨⟨not_aborted hreach, fun t owns => depth_pos_of_check hinv howned⟩,
    fun hfree => ?_, fun owner howner hidle => ?_, fun self hidle howner => ?_⟩
  · have hdepth : s.lockDepth.toNat = s.mutex.count := by
      refine depth_of_owner hinv howned fun t ht => ?_
      rw [hfree] at ht
      cases ht
    rw [hfree] at hdepth
    exact UInt32.toNat_inj.mp hdepth
  · refine depth_of_owner hinv howned fun t ht => ?_
    rw [Option.some_inj.mp (ht.symm.trans howner), hidle]
    rfl
  · have hdepth : s.lockDepth.toNat = s.mutex.count :=
      hinv.depth_eq_count fun t => by rw [hidle t]; rfl
    exact ⟨_, destruct_eq_ok b self hdepth howner, rfl, rfl⟩

/-- One task locks the mutex twice while another one waits for it and gives up. -/
theorem depth_tracks_owner_nested :
    ∃ s : State Bool, s.mutex = .held true 1 ∧ s.lockDepth = 2 ∧
      (s.aborted = false ∧ ∀ t owns, s.pc t = .check owns → 0 < s.lockDepth) ∧
      (s.mutex = .free → s.lockDepth = 0) ∧
      (∀ owner, s.mutex.owner = some owner → s.pc owner = .idle →
        s.lockDepth.toNat = s.mutex.count) ∧
      ∀ self, (∀ t, s.pc t = .idle) → s.mutex = .free ∨ s.mutex.owner = some self →
        ∃ m, s.toOsMutex.destruct ⟨false⟩ self = .ok m ∧ m.mutex.count = 0 ∧ m.lockDepth = 0 := by
  have h0 : (osMutex ⟨false⟩ Bool).Run OwnerUnlocks []
      { mutex := .held true 0, lockDepth := 1, pc := fun _ => .idle, aborted := false } :=
    .start ⟨⟨true, true, rfl⟩, fun _ => rfl, rfl⟩
  have h1 := h0.next (.callLock true) trivial ⟨rfl, .callLock rfl⟩
  have h2 := h1.next (.callLock false) trivial ⟨rfl, .callLock rfl⟩
  have h3 := h2.next (.lock true .ok) trivial ⟨rfl, .lock rfl rfl⟩
  have h4 := h3.next (.lock false .timeout) trivial ⟨rfl, .lockFails rfl (by decide)⟩
  have h5 := h4.next (.increment true) trivial ⟨rfl, .increment rfl⟩
  have h6 := h5.next (.return true .ok) trivial ⟨rfl, .returnLock rfl⟩
  have h7 := h6.next (.return false .timeout) trivial ⟨rfl, .returnLock rfl⟩
  have h8 := h7.next (.callUnlock true) rfl ⟨rfl, .callUnlock rfl⟩
  exact ⟨_, rfl, rfl, depth_tracks_owner ⟨_, h8⟩⟩

end Poski.Posix.OsMutex
