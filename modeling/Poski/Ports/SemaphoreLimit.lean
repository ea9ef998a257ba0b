import Poski.Ports.Semaphore
import Poski.RtThread.Semaphore

/-!
# The Limits of Semaphores on Four Ports

Every port's semaphore counts up to some maximum, and every port has its own way to answer a
give at the maximum and a take at zero. What a program is answered follows from these three
(`SemLimits.answers`), except that the FreeRTOS port does not go on when an assertion fails.

- `posix_answers`, `freeRtos_answers`, `rtThread_answers`, `zephyr_answers` : each port
- `SameAnswers` : a call that no port answers in its own way
- `sem_answers` : all ports, and which programs get the same answers everywhere
-/

namespace Poski.Ports

open Lib Spec

/-! ## What is answered -/

/-- The maximum of a semaphore, and what a give is answered there, and a take at zero. -/
structure SemLimits where
  max : ℕ
  full : PosError
  empty : PosError

/-- A call on a semaphore with `n` tokens. -/
def SemLimits.answers (limits : SemLimits) (n : ℕ) : SemCall → ℕ × PosError
  | .give => if n < limits.max then (n + 1, .ok) else (n, limits.full)
  | .take => if 0 < n then (n - 1, .ok) else (n, limits.empty)

def posixLimits : SemLimits := ⟨Posix.SEM_VALUE_MAX, .error, .timeout⟩

/-- A give that is lost is answered like any other. -/
def freeRtosLimits : SemLimits := ⟨128, .ok, .timeout⟩

def rtThreadLimits : SemLimits := ⟨RtThread.Semaphore.RT_SEM_VALUE_MAX, .error, .timeout⟩

/-- A give that is lost is answered like any other. -/
def zephyrLimits (limit : ℕ) : SemLimits := ⟨limit, .ok, .error⟩

section

variable (limits : SemLimits) {n : ℕ}

theorem answers_give_lt (hlt : n < limits.max) : limits.answers n .give = (n + 1, .ok) :=
  if_pos hlt

theorem answers_give_max (hmax : limits.max ≤ n) : limits.answers n .give = (n, limits.full) :=
  if_neg (Nat.not_lt.mpr hmax)

theorem answers_give_le : (limits.answers n .give).1 ≤ n + 1 := by
  rcases Nat.lt_or_ge n limits.max with hlt | hge
  · exact Nat.le_of_eq (congrArg Prod.fst (answers_give_lt limits hlt))
  · rw [answers_give_max limits hge]
    exact Nat.le_succ n

/-- A give that is not reported. -/
theorem answers_give_silent (hfull : limits.full = .ok) : (limits.answers n .give).2 = .ok := by
  rcases Nat.lt_or_ge n limits.max with hlt | hge
  · rw [answers_give_lt limits hlt]
  · rw [answers_give_max limits hge, hfull]

theorem answers_take_pos (hpos : 0 < n) : limits.answers n .take = (n - 1, .ok) :=
  if_pos hpos

theorem answers_take_zero : limits.answers 0 .take = (0, limits.empty) := rfl

end

/-! ## Each port -/

def rtThreadSem {S : Type} (kernel : RtThread.Semaphore.SemaphoreKernel S) (b : Build)
    (s : RtThread.Semaphore.PosSem S) :
    SemCall → Except Halt (RtThread.Semaphore.PosSem S × PosError)
  | .give => RtThread.Semaphore.posSemGive kernel b s
  | .take => RtThread.Semaphore.posSemTake kernel b s 0

def rtThreadRun {S : Type} (kernel : RtThread.Semaphore.SemaphoreKernel S) (b : Build)
    (tokens : UInt16) (calls : List SemCall) : Except Halt (List PosError) := do
  let (sem, err) ← RtThread.Semaphore.posSemInit kernel b tokens
  return err :: (← replies (rtThreadSem kernel b) sem calls)

variable {b : Build} {tokens : UInt16} {calls : List SemCall}

/-- A port that answers every call as its limits say, if it has the tokens that `R` tells. -/
structure KeepsLimits {σ : Type} (port : σ → SemCall → Except Halt (σ × PosError))
    (R : σ → ℕ → Prop) (limits : SemLimits) : Prop where
  give_lt : ∀ s n, R s n → n < limits.max → ∃ s', port s .give = .ok (s', .ok) ∧ R s' (n + 1)
  give_max : ∀ s n, R s n → limits.max ≤ n → ∃ s', port s .give = .ok (s', limits.full) ∧ R s' n
  take_succ : ∀ s n, R s (n + 1) → ∃ s', port s .take = .ok (s', .ok) ∧ R s' n
  take_zero : ∀ s, R s 0 → ∃ s', port s .take = .ok (s', limits.empty) ∧ R s' 0

/-- One call. -/
theorem KeepsLimits.call {σ : Type} {port : σ → SemCall → Except Halt (σ × PosError)}
    {R : σ → ℕ → Prop} {limits : SemLimits} (hport : KeepsLimits port R limits) {s : σ} {n : ℕ}
    (c : SemCall) (hR : R s n) :
    ∃ s', port s c = .ok (s', (limits.answers n c).2) ∧ R s' (limits.answers n c).1 := by
  cases c with
  | give =>
    rcases Nat.lt_or_ge n limits.max with hlt | hge
    · rw [answers_give_lt limits hlt]
      exact hport.give_lt s n hR hlt
    · rw [answers_give_max limits hge]
      exact hport.give_max s n hR hge
  | take =>
    cases n with
    | zero =>
      rw [answers_take_zero]
      exact hport.take_zero s hR
    | succ n =>
      rw [answers_take_pos limits n.succ_pos]
      exact hport.take_succ s n hR

/-- Whole programs. -/
theorem KeepsLimits.replies_eq {σ : Type} {port : σ → SemCall → Except Halt (σ × PosError)}
    {R : σ → ℕ → Prop} {limits : SemLimits} (hport : KeepsLimits port R limits) {s : σ} {n : ℕ}
    (hR : R s n) : replies port s calls = .ok (specReplies limits.answers n calls) := by
  refine (replies_eq_iff (fun _ _ => True) R (fun s n c hR _ _ => hport.call c hR)
    (fun _ _ _ _ _ hnot => absurd trivial hnot) hR (alwaysCalls_true n calls)).mpr ?_
  exact alwaysCalls_true n calls

theorem posix_keepsLimits (looksFirst : Bool) (clock : ℕ → Posix.ClockReading) :
    KeepsLimits (posixSem looksFirst clock) (fun s n => s.2.count = n) posixLimits where
  give_lt s n hn hlt := by
    subst hn
    have hlt' : s.2.count < Posix.SEM_VALUE_MAX := hlt
    exact ⟨(s.1 + 1, ⟨s.2.count + 1, hlt'⟩), by simp [posixSem, Posix.posSemGive_of_lt hlt'], rfl⟩
  give_max s n hn hge := by
    have hmax : s.2.count = Posix.SEM_VALUE_MAX := Nat.le_antisymm s.2.count_le (hn ▸ hge)
    exact ⟨(s.1 + 1, s.2), by simp [posixSem, Posix.posSemGive_max hmax, posixLimits], hn⟩
  take_succ s n hn := by
    obtain ⟨sem', htake, hcount⟩ :=
      Posix.posSemTake_pos looksFirst (clock s.1) (Nat.lt_of_lt_of_eq n.succ_pos hn.symm)
    refine ⟨(s.1 + 1, sem'), ?_, Nat.succ.inj (hcount.symm.trans hn)⟩
    simp [posixSem, htake, bind, Except.bind, pure, Except.pure]
  take_zero s hzero := by
    refine ⟨(s.1 + 1, s.2), ?_, hzero⟩
    simp [posixSem, Posix.posSemTake_zero looksFirst (clock s.1) hzero, posixLimits, bind,
      Except.bind, pure, Except.pure]

/-- **The POSIX port**, in every program. -/
theorem posix_answers (looksFirst : Bool) (clock : ℕ → Posix.ClockReading) (tokens : UInt16)
    (calls : List SemCall) :
    posixRun looksFirst clock tokens calls =
      .ok (.ok :: specReplies posixLimits.answers tokens.toNat calls) := by
  obtain ⟨sem, hinit, hcount⟩ := Posix.posSemInit_eq tokens
  rw [posixRun, hinit]
  exact cons_reply_eq_ok.mpr ((posix_keepsLimits looksFirst clock).replies_eq hcount)

section RtThread

variable {S : Type} {rtThread : RtThread.Semaphore.SemaphoreKernel S} {countR : S → ℕ}

theorem rtThread_keepsLimits (hdoc : rtThread.Documented countR) :
    KeepsLimits (rtThreadSem rtThread b)
      (fun s n => ∃ handle, s = { handle := some handle } ∧ countR handle = n) rtThreadLimits where
  give_lt := by
    rintro _ _ ⟨handle, rfl, rfl⟩ hlt
    obtain ⟨handle', hgive, hcount⟩ := RtThread.Semaphore.posSemGive_lt (b := b) hdoc hlt
    exact ⟨_, hgive, handle', rfl, hcount⟩
  give_max := by
    rintro _ _ ⟨handle, rfl, rfl⟩ hge
    obtain ⟨handle', hgive, hcount⟩ := RtThread.Semaphore.posSemGive_max (b := b) hdoc hge
    exact ⟨_, hgive, handle', rfl, hcount⟩
  take_succ := by
    rintro _ n ⟨handle, rfl, hn⟩
    obtain ⟨handle', htake, hcount⟩ :=
      RtThread.Semaphore.posSemTake_pos (b := b) hdoc (Nat.lt_of_lt_of_eq n.succ_pos hn.symm)
    exact ⟨_, htake, handle', rfl, Nat.succ.inj (hcount.symm.trans hn)⟩
  take_zero := by
    rintro _ ⟨handle, rfl, hzero⟩
    obtain ⟨handle', htake, hcount⟩ := RtThread.Semaphore.posSemTake_zero (b := b) hdoc hzero
    exact ⟨_, htake, handle', rfl, hcount⟩

/-- **The RT-Thread port**, in every program, if there is memory for the semaphore. -/
theorem rtThread_answers (hdoc : rtThread.Documented countR) {handle : S}
    (hcreate : rtThread.rtSemCreate tokens.toNat = some handle) (b : Build)
    (calls : List SemCall) :
    rtThreadRun rtThread b tokens calls =
      .ok (.ok :: specReplies rtThreadLimits.answers tokens.toNat calls) := by
  obtain ⟨hinit, hcount⟩ := RtThread.Semaphore.posSemInit_of_create (b := b) hdoc hcreate
  rw [rtThreadRun, hinit]
  exact cons_reply_eq_ok.mpr ((rtThread_keepsLimits hdoc).replies_eq ⟨handle, rfl, hcount⟩)

end RtThread

section Zephyr

variable {Z : Type} {zephyr : Zephyr.KSem Z} {countZ : Z → ℕ} {limit : ℕ}

theorem zephyr_keepsLimits (hdoc : zephyr.Documented countZ limit) :
    KeepsLimits (zephyrSem zephyr) (fun s n => countZ s = n) (zephyrLimits limit) where
  give_lt s n hn hlt := by
    subst hn
    obtain ⟨s', hgive, hcount⟩ := Zephyr.posSemGive_lt hdoc hlt
    exact ⟨s', congrArg Except.ok hgive, hcount⟩
  give_max s n hn hge := by
    subst hn
    obtain ⟨s', hgive, hcount⟩ := Zephyr.posSemGive_max hdoc hge
    exact ⟨s', congrArg Except.ok hgive, hcount⟩
  take_succ s n hn := by
    obtain ⟨s', htake, hcount⟩ := Zephyr.posSemTake_pos hdoc (Nat.lt_of_lt_of_eq n.succ_pos hn.symm)
    exact ⟨s', htake, Nat.succ.inj (hcount.symm.trans hn)⟩
  take_zero s hzero := Zephyr.posSemTake_zero hdoc hzero

/-- **The Zephyr port**, in every program. -/
theorem zephyr_answers (hdoc : zephyr.Documented countZ limit) (hpos : 0 < limit)
    (hle : tokens.toNat ≤ limit) (calls : List SemCall) :
    zephyrRun zephyr limit tokens calls =
      .ok (.ok :: specReplies (zephyrLimits limit).answers tokens.toNat calls) := by
  obtain ⟨sem, hinit, hcount⟩ := Zephyr.posSemInit_of_le hdoc hpos hle
  rw [zephyrRun, hinit]
  exact cons_reply_eq_ok.mpr ((zephyr_keepsLimits hdoc).replies_eq hcount)

end Zephyr

/-- No assertion of the FreeRTOS port fails in this call. -/
def GoesOn (b : Build) (n : ℕ) : SemCall → Prop
  | .give => b.ndebug = true ∨ n < 128
  | .take => True

section FreeRtos

variable {S : Type} {freeRtos : FreeRtos.SemaphoreKernel S} {countF : S → ℕ}

/-- The FreeRTOS semaphore has `n` tokens. -/
def HasTokens (countF : S → ℕ) (s : FreeRtos.PosSem S) (n : ℕ) : Prop :=
  ∃ handle, s = { handle := some handle } ∧ countF handle = n

variable (hdoc : freeRtos.Documented countF 128)
include hdoc

theorem freeRtosSem_of_goesOn {s : FreeRtos.PosSem S} {n : ℕ} {c : SemCall}
    (hR : HasTokens countF s n) (hgoes : GoesOn b n c) :
    ∃ s', freeRtosSem freeRtos b s c = .ok (s', (freeRtosLimits.answers n c).2) ∧
      HasTokens countF s' (freeRtosLimits.answers n c).1 := by
  obtain ⟨handle, rfl, rfl⟩ := hR
  cases c with
  | give =>
    rcases Nat.lt_or_ge (countF handle) 128 with hlt | hge
    · rw [answers_give_lt freeRtosLimits hlt]
      obtain ⟨handle', hgive, hcount⟩ := FreeRtos.posSemGive_lt (b := b) hdoc hlt
      exact ⟨_, hgive, handle', rfl, hcount⟩
    · rw [answers_give_max freeRtosLimits hge]
      have hndebug : b.ndebug = true := hgoes.resolve_right (Nat.not_lt.mpr hge)
      obtain ⟨handle', hgive, hcount⟩ := FreeRtos.posSemGive_max (b := b) hdoc hge
      exact ⟨_, hgive.trans (if_pos hndebug), handle', rfl, hcount⟩
  | take =>
    rcases Nat.eq_zero_or_pos (countF handle) with hzero | hpos
    · rw [hzero, answers_take_zero]
      obtain ⟨handle', htake, hcount⟩ := FreeRtos.posSemTake_zero (b := b) hdoc hzero
      exact ⟨_, htake, handle', rfl, hcount⟩
    · rw [answers_take_pos _ hpos]
      obtain ⟨handle', htake, hcount⟩ := FreeRtos.posSemTake_pos (b := b) hdoc hpos
      exact ⟨_, htake, handle', rfl, (Nat.sub_eq_of_eq_add hcount).symm⟩

theorem freeRtosSem_halts {s : FreeRtos.PosSem S} {n : ℕ} {c : SemCall}
    (hR : HasTokens countF s n) (hnot : ¬GoesOn b n c) :
    freeRtosSem freeRtos b s c = .error .assertion := by
  obtain ⟨handle, rfl, rfl⟩ := hR
  cases c with
  | give =>
    obtain ⟨hdebug, hge⟩ := not_or.mp hnot
    obtain ⟨handle', hgive, -⟩ := FreeRtos.posSemGive_max (b := b) hdoc (Nat.not_lt.mp hge)
    exact hgive.trans (if_neg hdebug)
  | take => exact absurd trivial hnot

/-- **The FreeRTOS port**, in a program in which no assertion of it fails. -/
theorem freeRtos_answers (hmemory : freeRtos.HasMemory 128) (hle : tokens.toNat ≤ 128)
    (hgoes : AlwaysCalls freeRtosLimits.answers (GoesOn b) tokens.toNat calls) :
    freeRtosRun freeRtos b tokens calls =
      .ok (.ok :: specReplies freeRtosLimits.answers tokens.toNat calls) := by
  obtain ⟨handle, hinit, hcount⟩ := FreeRtos.posSemInit_of_le (b := b) hdoc hmemory hle
  rw [freeRtosRun, hinit]
  refine cons_reply_eq_ok.mpr ((replies_eq_iff (fun _ _ => True) (HasTokens countF) ?_ ?_
    ⟨handle, rfl, hcount⟩ hgoes).mpr (alwaysCalls_true _ calls))
  · exact fun s n c hR hgoes _ => freeRtosSem_of_goesOn hdoc hR hgoes
  · exact fun _ _ _ _ _ hnot => absurd trivial hnot

/-- In any other program it fails one. -/
theorem freeRtos_halts (hmemory : freeRtos.HasMemory 128) (hle : tokens.toNat ≤ 128)
    (hnot : ¬AlwaysCalls freeRtosLimits.answers (GoesOn b) tokens.toNat calls) :
    freeRtosRun freeRtos b tokens calls = .error .assertion := by
  obtain ⟨handle, hinit, hcount⟩ := FreeRtos.posSemInit_of_le (b := b) hdoc hmemory hle
  have hreplies : replies (freeRtosSem freeRtos b) { handle := some handle } calls =
      .error .assertion :=
    replies_eq_error (GoesOn b) (HasTokens countF) (fun _ _ _ => freeRtosSem_of_goesOn hdoc)
      (fun _ _ _ => freeRtosSem_halts hdoc) ⟨handle, rfl, hcount⟩ hnot
  rw [freeRtosRun, hinit]
  simp only [bind, Except.bind, hreplies]

end FreeRtos

/-! ## The same answers -/

variable {limit : ℕ}

/-- Two semaphores, side by side; the first one answers. -/
def sideBySide (l l' : SemLimits) (s : ℕ × ℕ) (c : SemCall) : (ℕ × ℕ) × PosError :=
  (((l.answers s.1 c).1, (l'.answers s.2 c).1), (l.answers s.1 c).2)

/-- No port answers in its own way, where there are `s.1` tokens, of which `s.2` are left on
FreeRTOS. -/
def SameAnswers (b : Build) (s : ℕ × ℕ) : SemCall → Prop
  | .give => s.1 < 65535 ∧ GoesOn b s.2 .give
  | .take => 0 < s.2

theorem alwaysCalls_sideBySide {l l' : SemLimits} {good : ℕ → SemCall → Prop} (s : ℕ × ℕ) :
    AlwaysCalls (sideBySide l l') (fun s c => good s.2 c) s calls ↔
      AlwaysCalls l'.answers good s.2 calls := by
  induction calls generalizing s with
  | nil => rfl
  | cons c calls ih => exact and_congr Iff.rfl (ih _)

/-- The answers to one call. -/
theorem same_answer_iff (hlimit : 65535 ≤ limit) {n k : ℕ} (hk : k ≤ n) (hn : n ≤ 65535)
    (c : SemCall) :
    ((posixLimits.answers n c).2 = (freeRtosLimits.answers k c).2 ∧
        (posixLimits.answers n c).2 = (rtThreadLimits.answers n c).2 ∧
        (posixLimits.answers n c).2 = ((zephyrLimits limit).answers n c).2) ↔
      SameAnswers ⟨true⟩ (n, k) c := by
  cases c with
  | give =>
    have hposix : posixLimits.answers n .give = (n + 1, .ok) :=
      answers_give_lt posixLimits (Nat.lt_of_le_of_lt hn (by decide))
    rw [hposix, answers_give_silent freeRtosLimits rfl]
    rcases Nat.lt_or_ge n 65535 with hlt | hge
    · rw [answers_give_lt rtThreadLimits hlt,
        answers_give_lt (zephyrLimits limit) (Nat.lt_of_lt_of_le hlt hlimit)]
      exact iff_of_true ⟨rfl, rfl, rfl⟩ ⟨hlt, .inl rfl⟩
    · -- only RT-Thread is at its maximum
      rw [answers_give_max rtThreadLimits hge]
      exact iff_of_false (fun hsame => nomatch hsame.2.1) fun hsame => Nat.not_lt.mpr hge hsame.1
  | take =>
    rcases Nat.eq_zero_or_pos n with hzero | hpos
    · have hzero' : k = 0 := Nat.le_zero.mp (hzero ▸ hk)
      rw [hzero, hzero']
      -- Zephyr takes it for an error
      exact iff_of_false (fun hsame => nomatch hsame.2.2) (Nat.lt_irrefl 0)
    · rw [answers_take_pos _ hpos, answers_take_pos _ hpos, answers_take_pos _ hpos]
      rcases Nat.eq_zero_or_pos k with hlost | hleft
      · rw [hlost]
        -- FreeRTOS has lost the tokens
        exact iff_of_false (fun hsame => nomatch hsame.1) (Nat.lt_irrefl 0)
      · rw [answers_take_pos _ hleft]
        exact iff_of_true ⟨rfl, rfl, rfl⟩ hleft

/-- After such a call the tokens are still the same, but for those that FreeRTOS has lost. -/
theorem SameAnswers.step (hlimit : 65535 ≤ limit) {n k : ℕ} (hk : k ≤ n) (hn : n ≤ 65535)
    {c : SemCall} (h : SameAnswers ⟨true⟩ (n, k) c) :
    (freeRtosLimits.answers k c).1 ≤ (posixLimits.answers n c).1 ∧
      (posixLimits.answers n c).1 ≤ 65535 ∧
      (rtThreadLimits.answers n c).1 = (posixLimits.answers n c).1 ∧
      ((zephyrLimits limit).answers n c).1 = (posixLimits.answers n c).1 := by
  cases c with
  | give =>
    have hlt : n < 65535 := h.1
    rw [answers_give_lt posixLimits (Nat.lt_of_lt_of_le hlt (by decide)),
      answers_give_lt rtThreadLimits hlt,
      answers_give_lt (zephyrLimits limit) (Nat.lt_of_lt_of_le hlt hlimit)]
    exact ⟨Nat.le_trans (answers_give_le freeRtosLimits) (Nat.succ_le_succ hk), hlt, rfl, rfl⟩
  | take =>
    have hleft : 0 < k := h
    have hpos : 0 < n := Nat.lt_of_lt_of_le hleft hk
    rw [answers_take_pos _ hleft, answers_take_pos _ hpos, answers_take_pos _ hpos,
      answers_take_pos _ hpos]
    exact ⟨Nat.sub_le_sub_right hk 1, Nat.le_trans (Nat.sub_le n 1) hn, rfl, rfl⟩

/-- Without assertions. -/
theorem same_answers_iff (hlimit : 65535 ≤ limit) {n k : ℕ} (hk : k ≤ n) (hn : n ≤ 65535) :
    (specReplies posixLimits.answers n calls = specReplies freeRtosLimits.answers k calls ∧
        specReplies posixLimits.answers n calls = specReplies rtThreadLimits.answers n calls ∧
        specReplies posixLimits.answers n calls =
          specReplies (zephyrLimits limit).answers n calls) ↔
      AlwaysCalls (sideBySide posixLimits freeRtosLimits) (SameAnswers ⟨true⟩) (n, k) calls := by
  induction calls generalizing n k with
  | nil => exact iff_of_true ⟨rfl, rfl, rfl⟩ trivial
  | cons c calls ih =>
    have hcall := same_answer_iff hlimit hk hn c
    simp only [specReplies, AlwaysCalls, List.cons.injEq]
    constructor
    · intro hsame
      have hc : SameAnswers ⟨true⟩ (n, k) c := hcall.mp ⟨hsame.1.1, hsame.2.1.1, hsame.2.2.1⟩
      obtain ⟨hk', hn', hrtThread, hzephyr⟩ := hc.step hlimit hk hn
      rw [hrtThread, hzephyr] at hsame
      exact ⟨hc, (ih hk' hn').mp ⟨hsame.1.2, hsame.2.1.2, hsame.2.2.2⟩⟩
    · rintro ⟨hc, hrest⟩
      obtain ⟨hk', hn', hrtThread, hzephyr⟩ := hc.step hlimit hk hn
      obtain ⟨hreply, hreply', hreply''⟩ := hcall.mpr hc
      obtain ⟨hsame, hsame', hsame''⟩ := (ih hk' hn').mpr hrest
      rw [hrtThread, hzephyr]
      exact ⟨⟨hreply, hsame⟩, ⟨hreply', hsame'⟩, hreply'', hsame''⟩

/-- Assertions only add to what has to be met. -/
theorem sameAnswers_iff_goesOn (s : ℕ × ℕ) (c : SemCall) :
    SameAnswers b s c ↔ SameAnswers ⟨true⟩ s c ∧ GoesOn b s.2 c := by
  cases c with
  | give => simp [SameAnswers, GoesOn]
  | take => simp [SameAnswers, GoesOn]

/-- **Four ports**, in any program that makes a semaphore and then gives tokens and takes them
without waiting. All answers on POSIX, RT-Thread and Zephyr are those of a semaphore with the
port's limits. So are those on FreeRTOS, if there are 128 tokens initially at most and as long as
no assertion fails (`freeRtosRun_of_lt` says what it does with more). The answers are the same on
all ports exactly if there are 128 tokens initially at most, every take finds a token that
FreeRTOS has not lost, and no give finds 65535 tokens, nor 128 where assertions are compiled in;
or if there are more tokens, no assertions, and no calls. The limit on Zephyr is one of 65535 at
least. -/
theorem sem_answers {F R Z : Type} {freeRtos : FreeRtos.SemaphoreKernel F} {countF : F → ℕ}
    (hfreeRtos : freeRtos.Documented countF 128) (hmemory : freeRtos.HasMemory 128)
    {rtThread : RtThread.Semaphore.SemaphoreKernel R} {countR : R → ℕ}
    (hrtThread : rtThread.Documented countR) {zephyr : Zephyr.KSem Z} {countZ : Z → ℕ}
    (hzephyr : zephyr.Documented countZ limit) (hlimit : 65535 ≤ limit)
    (b : Build) (looksFirst : Bool) (clock : ℕ → Posix.ClockReading) (tokens : UInt16)
    {handle : R} (hcreate : rtThread.rtSemCreate tokens.toNat = some handle)
    (calls : List SemCall) :
    posixRun looksFirst clock tokens calls =
      .ok (.ok :: specReplies posixLimits.answers tokens.toNat calls) ∧
    rtThreadRun rtThread b tokens calls =
      .ok (.ok :: specReplies rtThreadLimits.answers tokens.toNat calls) ∧
    zephyrRun zephyr limit tokens calls =
      .ok (.ok :: specReplies (zephyrLimits limit).answers tokens.toNat calls) ∧
    (tokens.toNat ≤ 128 →
      (AlwaysCalls freeRtosLimits.answers (GoesOn b) tokens.toNat calls →
        freeRtosRun freeRtos b tokens calls =
          .ok (.ok :: specReplies freeRtosLimits.answers tokens.toNat calls)) ∧
      (¬AlwaysCalls freeRtosLimits.answers (GoesOn b) tokens.toNat calls →
        freeRtosRun freeRtos b tokens calls = .error .assertion)) ∧
    ((posixRun looksFirst clock tokens calls = freeRtosRun freeRtos b tokens calls ∧
        posixRun looksFirst clock tokens calls = rtThreadRun rtThread b tokens calls ∧
        posixRun looksFirst clock tokens calls = zephyrRun zephyr limit tokens calls) ↔
      (tokens.toNat ≤ 128 ∧ AlwaysCalls (sideBySide posixLimits freeRtosLimits) (SameAnswers b)
        (tokens.toNat, tokens.toNat) calls) ∨
      (128 < tokens.toNat ∧ b.ndebug = true ∧ calls = [])) := by
  have htokens : tokens.toNat ≤ 65535 := Nat.le_of_lt_succ tokens.toNat_lt
  have hposix := posix_answers looksFirst clock tokens calls
  have hrt := rtThread_answers hrtThread hcreate b calls
  have hz := zephyr_answers hzephyr (Nat.lt_of_lt_of_le (by decide) hlimit)
    (Nat.le_trans htokens hlimit) calls
  refine ⟨hposix, hrt, hz,
    fun hle => ⟨freeRtos_answers hfreeRtos hmemory hle, freeRtos_halts hfreeRtos hmemory hle⟩, ?_⟩
  rcases Nat.lt_or_ge 128 tokens.toNat with hlt | hle
  · have hnot : ¬tokens.toNat ≤ 128 := Nat.not_le.mpr hlt
    rw [hposix, hrt, hz, freeRtosRun_of_lt hfreeRtos hlt]
    simp only [hnot, hlt, false_and, true_and, false_or]
    constructor
    · intro hsame
      cases hn : b.ndebug with
      | false =>
        rw [hn] at hsame
        cases hsame.1
      | true =>
        rw [if_pos hn] at hsame
        by_cases hcalls : calls = []
        · exact ⟨rfl, hcalls⟩
        · rw [if_neg hcalls] at hsame
          cases hsame.1
    · rintro ⟨hn, hcalls⟩
      rw [if_pos hn, if_pos hcalls, hcalls]
      exact ⟨rfl, rfl, rfl⟩
  · have hnot : ¬128 < tokens.toNat := Nat.not_lt.mpr hle
    have hboth : AlwaysCalls (sideBySide posixLimits freeRtosLimits) (SameAnswers b)
          (tokens.toNat, tokens.toNat) calls ↔
        AlwaysCalls (sideBySide posixLimits freeRtosLimits) (SameAnswers ⟨true⟩)
          (tokens.toNat, tokens.toNat) calls ∧
        AlwaysCalls freeRtosLimits.answers (GoesOn b) tokens.toNat calls := by
      rw [alwaysCalls_congr sameAnswers_iff_goesOn, alwaysCalls_and]
      exact and_congr Iff.rfl (alwaysCalls_sideBySide _)
    simp only [hle, hnot, true_and, false_and, or_false]
    by_cases hgoes : AlwaysCalls freeRtosLimits.answers (GoesOn b) tokens.toNat calls
    · rw [hboth, hposix, hrt, hz, freeRtos_answers hfreeRtos hmemory hle hgoes,
        and_iff_left hgoes, ← same_answers_iff hlimit (Nat.le_refl _) htokens]
      simp only [Except.ok.injEq, List.cons.injEq, true_and]
    · rw [hboth, hposix, freeRtos_halts hfreeRtos hmemory hle hgoes]
      exact iff_of_false (fun hsame => nomatch hsame.1) fun hall => hgoes hall.2

/-- A token is given that FreeRTOS has no room for, which does not show as long as the others are
there to be taken. -/
theorem sem_answers_lost :
    let calls : List SemCall := [.give, .take]
    posixRun false default 128 calls = .ok [.ok, .ok, .ok] ∧
    rtThreadRun RtThread.Semaphore.countingKernel ⟨true⟩ 128 calls = .ok [.ok, .ok, .ok] ∧
    zephyrRun (Zephyr.countingKSem 65535) 65535 128 calls = .ok [.ok, .ok, .ok] ∧
    ((128 : UInt16).toNat ≤ 128 →
      (AlwaysCalls freeRtosLimits.answers (GoesOn ⟨true⟩) 128 calls →
        freeRtosRun FreeRtos.countingKernel ⟨true⟩ 128 calls = .ok [.ok, .ok, .ok]) ∧
      (¬AlwaysCalls freeRtosLimits.answers (GoesOn ⟨true⟩) 128 calls →
        freeRtosRun FreeRtos.countingKernel ⟨true⟩ 128 calls = .error .assertion)) ∧
    ((posixRun false default 128 calls = freeRtosRun FreeRtos.countingKernel ⟨true⟩ 128 calls ∧
        posixRun false default 128 calls =
          rtThreadRun RtThread.Semaphore.countingKernel ⟨true⟩ 128 calls ∧
        posixRun false default 128 calls = zephyrRun (Zephyr.countingKSem 65535) 65535 128 calls) ↔
      ((128 : UInt16).toNat ≤ 128 ∧ AlwaysCalls (sideBySide posixLimits freeRtosLimits)
        (SameAnswers ⟨true⟩) (128, 128) calls) ∨
      (128 < (128 : UInt16).toNat ∧ true = true ∧ calls = [])) :=
  sem_answers FreeRtos.countingKernel_documented FreeRtos.countingKernel_hasMemory
    RtThread.Semaphore.countingKernel_documented (Zephyr.countingKSem_documented 65535)
    (Nat.le_refl 65535) ⟨true⟩ false default 128 rfl [.give, .take]

end Poski.Ports
