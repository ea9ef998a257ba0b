import Mathlib.Order.Basic
import Poski.FreeRtos.Semaphore
import Poski.Posix.Semaphore
import Poski.Spec.Semaphore
import Poski.Zephyr.Semaphore

/-!
# Semaphores on Three Ports

Calls of `pos_sem_give` and of `pos_sem_take` with `POS_TIME_NO_WAIT`, made by tasks one
after the other on a semaphore of each port, compared with a semaphore that just counts.

- `posix_replies` : the POSIX port replies as a semaphore should
- `ports_differ` : the Zephyr port does not, when it has no token
- `Alike` : where the ports do not differ
- `ports_agree_iff` : the three ports reply as a semaphore should exactly in such runs
-/

namespace Poski.Ports

open Lib Spec

/-! ## The ports -/

/-- A POSIX semaphore, and how many calls have been made; `clock` reads the time of each. -/
def posixSem (looksFirst : Bool) (clock : ℕ → Posix.ClockReading) (s : ℕ × Posix.SemT) :
    SemCall → Except Halt ((ℕ × Posix.SemT) × PosError)
  | .give =>
    let (err, sem) := Posix.posSemGive s.2
    .ok ((s.1 + 1, sem), err)
  | .take => do
    let (err, sem) ← Posix.posSemTake looksFirst (some (clock s.1)) s.2 Posix.POS_TIME_NO_WAIT
    return ((s.1 + 1, sem), err)

/-- The calls are made by tasks. -/
def freeRtosSem {S : Type} (kernel : FreeRtos.SemaphoreKernel S) (b : Build)
    (s : FreeRtos.PosSem S) : SemCall → Except Halt (FreeRtos.PosSem S × PosError)
  | .give => FreeRtos.posSemGive kernel b false s
  | .take => FreeRtos.posSemTake kernel b false s 0

def zephyrSem {S : Type} (kernel : Zephyr.KSem S) (s : S) : SemCall → Except Halt (S × PosError)
  | .give => .ok (Zephyr.posSemGive kernel s)
  | .take => Zephyr.posSemTake kernel s Zephyr.POS_TIME_NO_WAIT

/-- The codes that a POSIX program gets, that of `pos_sem_init` first. -/
def posixRun (looksFirst : Bool) (clock : ℕ → Posix.ClockReading) (tokens : UInt16)
    (calls : List SemCall) : Except Halt (List PosError) := do
  let (err, sem) := Posix.posSemInit tokens
  match sem with
  | none => .ok [err]
  | some sem => return err :: (← replies (posixSem looksFirst clock) (0, sem) calls)

def freeRtosRun {S : Type} (kernel : FreeRtos.SemaphoreKernel S) (b : Build) (tokens : UInt16)
    (calls : List SemCall) : Except Halt (List PosError) := do
  let (sem, err) ← FreeRtos.posSemInit kernel b tokens
  return err :: (← replies (freeRtosSem kernel b) sem calls)

def zephyrRun {S : Type} (kernel : Zephyr.KSem S) (K_SEM_MAX_LIMIT : ℕ) (tokens : UInt16)
    (calls : List SemCall) : Except Halt (List PosError) := do
  let (sem, err) := Zephyr.posSemInit kernel K_SEM_MAX_LIMIT tokens
  match sem with
  | none => .ok [err]
  | some sem => return err :: (← replies (zephyrSem kernel) sem calls)

/-- The codes that a semaphore should return. -/
def semRun (tokens : UInt16) (calls : List SemCall) : List PosError :=
  .ok :: specReplies semaphore tokens.toNat calls

/-! ## The defects -/

/-- The Zephyr port reports the second take of one token as an error. -/
theorem ports_differ :
    ¬∀ (S Z : Type) (freeRtos : FreeRtos.SemaphoreKernel S) (countF : S → ℕ)
      (zephyr : Zephyr.KSem Z) (countZ : Z → ℕ) (b : Build) (looksFirst : Bool) (limit : ℕ)
      (clock : ℕ → Posix.ClockReading) (tokens : UInt16) (calls : List SemCall),
      freeRtos.Documented countF 128 → freeRtos.HasMemory 128 → zephyr.Documented countZ limit →
      65535 ≤ limit → AlwaysCalls semaphore FitsUInt16 tokens.toNat calls →
        posixRun looksFirst clock tokens calls = .ok (semRun tokens calls) ∧
        freeRtosRun freeRtos b tokens calls = .ok (semRun tokens calls) ∧
        zephyrRun zephyr limit tokens calls = .ok (semRun tokens calls) := by
  intro halways
  have hfits : AlwaysCalls semaphore FitsUInt16 (1 : UInt16).toNat [.take, .take] := by
    simp [AlwaysCalls, FitsUInt16]
  have hagree := halways _ _ _ _ _ _ ⟨false⟩ false 65535 default 1 [.take, .take]
    FreeRtos.countingKernel_documented FreeRtos.countingKernel_hasMemory
    (Zephyr.countingKSem_documented 65535) (Nat.le_refl _) hfits
  have hzephyr := hagree.2.2
  cases hzephyr

/-! ## Where the ports do not differ -/

/-- How many tokens there are, and how many of them a semaphore has that loses those beyond
128. -/
structure Counts where
  tokens : ℕ
  kept : ℕ
  kept_le : kept ≤ tokens

/-- Initially no tokens are lost. -/
def Counts.ofTokens (n : ℕ) : Counts := ⟨n, n, Nat.le_refl n⟩

/-- A call, on both. -/
def counts (s : Counts) : SemCall → Counts × PosError
  | .give => (⟨s.tokens + 1, min (s.kept + 1) 128, by have := s.kept_le; omega⟩, .ok)
  | .take =>
    (⟨(semaphore s.tokens .take).1, s.kept - 1, by
        have := s.kept_le
        simp only [semaphore]
        split <;> simp only <;> omega⟩,
      (semaphore s.tokens .take).2)

/-- The ports reply alike: a take finds a token that no port has lost, and a give that the
FreeRTOS port loses goes unnoticed there. -/
def Alike (b : Build) (s : Counts) : SemCall → Prop
  | .give => b.ndebug = true ∨ s.kept < 128
  | .take => 0 < s.kept

/-- The FreeRTOS port replies as it should. -/
def FreeRtosServes (b : Build) (s : Counts) : SemCall → Prop
  | .give => b.ndebug = true ∨ s.kept < 128
  | .take => 0 < s.kept ∨ s.tokens = 0

/-- The Zephyr port replies as it should. -/
def ZephyrServes (tokens : ℕ) : SemCall → Prop
  | .give => True
  | .take => 0 < tokens

theorem counts_reply (s : Counts) (c : SemCall) : (counts s c).2 = (semaphore s.tokens c).2 := by
  cases c <;> rfl

theorem counts_tokens (s : Counts) (c : SemCall) :
    (counts s c).1.tokens = (semaphore s.tokens c).1 := by
  cases c <;> rfl

variable {b : Build} {tokens : UInt16} {calls : List SemCall}

theorem specReplies_counts (s : Counts) :
    specReplies counts s calls = specReplies semaphore s.tokens calls := by
  induction calls generalizing s with
  | nil => rfl
  | cons c calls ih => simp only [specReplies, counts_reply, ih, counts_tokens]

theorem alwaysCalls_counts {good : ℕ → SemCall → Prop} (s : Counts) :
    AlwaysCalls counts (fun s c => good s.tokens c) s calls ↔
      AlwaysCalls semaphore good s.tokens calls := by
  induction calls generalizing s with
  | nil => rfl
  | cons c calls ih => simp only [AlwaysCalls, ih, counts_tokens]

theorem alike_iff (s : Counts) (c : SemCall) :
    Alike b s c ↔ ZephyrServes s.tokens c ∧ FreeRtosServes b s c := by
  have hle := s.kept_le
  cases c with
  | give => simp [Alike, ZephyrServes, FreeRtosServes]
  | take =>
    simp only [Alike, ZephyrServes, FreeRtosServes]
    omega

/-! ## Each port -/

theorem posixSem_step (looksFirst : Bool) (clock : ℕ → Posix.ClockReading)
    {s : ℕ × Posix.SemT} {n : ℕ} {c : SemCall} (hcount : s.2.count = n) (hfits : FitsUInt16 n c) :
    ∃ s', posixSem looksFirst clock s c = .ok (s', (semaphore n c).2) ∧
      s'.2.count = (semaphore n c).1 := by
  subst hcount
  cases c with
  | give =>
    have hlt : s.2.count < Posix.SEM_VALUE_MAX := by
      simp only [FitsUInt16, semaphore_give] at hfits
      unfold Posix.SEM_VALUE_MAX
      omega
    exact ⟨(s.1 + 1, ⟨s.2.count + 1, hlt⟩), by simp [posixSem, Posix.posSemGive_of_lt hlt], rfl⟩
  | take =>
    rcases Nat.eq_zero_or_pos s.2.count with hzero | hpos
    · refine ⟨(s.1 + 1, s.2), ?_, by simp [hzero]⟩
      simp [posixSem, Posix.posSemTake_zero looksFirst (clock s.1) hzero, hzero, bind, Except.bind,
        pure, Except.pure]
    · -- whatever the clock says, a token is there
      obtain ⟨sem', htake, hcount⟩ := Posix.posSemTake_pos looksFirst (clock s.1) hpos
      refine ⟨(s.1 + 1, sem'), ?_, by simp [hcount]⟩
      simp [posixSem, htake, hcount, bind, Except.bind, pure, Except.pure]

/-- **The POSIX port** replies as a semaphore should. -/
theorem posix_replies (looksFirst : Bool) (clock : ℕ → Posix.ClockReading)
    (hfits : AlwaysCalls semaphore FitsUInt16 tokens.toNat calls) :
    posixRun looksFirst clock tokens calls = .ok (semRun tokens calls) := by
  obtain ⟨sem, hinit, hcount⟩ := Posix.posSemInit_eq tokens
  have hreplies : replies (posixSem looksFirst clock) (0, sem) calls =
      .ok (specReplies semaphore tokens.toNat calls) := by
    -- there is no call that this port serves wrongly
    refine (replies_eq_iff (fun _ _ => True) (fun s n => s.2.count = n) ?_ ?_ hcount hfits).mpr ?_
    · exact fun s n c hR hallowed _ => posixSem_step looksFirst clock hR hallowed
    · exact fun s n c _ _ hfalse => absurd trivial hfalse
    · exact hfits.mono fun _ _ _ => trivial
  rw [posixRun, hinit]
  exact cons_reply_eq_ok.mpr hreplies

section Zephyr

variable {Z : Type} {zephyr : Zephyr.KSem Z} {countZ : Z → ℕ} {limit : ℕ}
  (hzephyr : zephyr.Documented countZ limit)
include hzephyr

theorem zephyrSem_step (hlimit : 65535 ≤ limit) {s : Z} {n : ℕ} {c : SemCall}
    (hcount : countZ s = n) (hfits : FitsUInt16 n c) (hserves : ZephyrServes n c) :
    ∃ s', zephyrSem zephyr s c = .ok (s', (semaphore n c).2) ∧
      countZ s' = (semaphore n c).1 := by
  subst hcount
  cases c with
  | give =>
    have hlt : countZ s < limit := by
      simp only [FitsUInt16, semaphore_give] at hfits
      omega
    obtain ⟨s', hgive, hcount⟩ := Zephyr.posSemGive_lt hzephyr hlt
    exact ⟨s', by simp [zephyrSem, hgive], by simp [hcount]⟩
  | take =>
    obtain ⟨s', htake, hcount⟩ := Zephyr.posSemTake_pos hzephyr hserves
    exact ⟨s', by simp [zephyrSem, htake, hcount], by simp [hcount]⟩

/-- The Zephyr port does not reply as it should to a take that finds no token. -/
theorem zephyrSem_wrong {s : Z} {n : ℕ} {c : SemCall} (hcount : countZ s = n)
    (hnot : ¬ZephyrServes n c) (s' : Z) :
    zephyrSem zephyr s c ≠ .ok (s', (semaphore n c).2) := by
  cases c with
  | give => exact absurd trivial hnot
  | take =>
    -- `-EBUSY` is not among the codes that the port translates
    have hzero : n = 0 := Nat.eq_zero_of_not_pos hnot
    obtain ⟨s'', htake, -⟩ := Zephyr.posSemTake_zero hzephyr (hcount.trans hzero)
    simp [zephyrSem, htake, hzero]

/-- **The Zephyr port** replies as a semaphore should exactly if every take finds a token. -/
theorem zephyr_replies_iff (hlimit : 65535 ≤ limit)
    (hfits : AlwaysCalls semaphore FitsUInt16 tokens.toNat calls) :
    zephyrRun zephyr limit tokens calls = .ok (semRun tokens calls) ↔
      AlwaysCalls semaphore ZephyrServes tokens.toNat calls := by
  have hle : tokens.toNat ≤ limit := by
    have hlt := tokens.toNat_lt
    omega
  obtain ⟨sem, hinit, hcount⟩ := Zephyr.posSemInit_of_le hzephyr (by omega) hle
  have hreplies : replies (zephyrSem zephyr) sem calls =
      .ok (specReplies semaphore tokens.toNat calls) ↔
        AlwaysCalls semaphore ZephyrServes tokens.toNat calls := by
    refine replies_eq_iff ZephyrServes (fun s n => countZ s = n) ?_ ?_ hcount hfits
    · exact fun s n c hR hallowed hserves => zephyrSem_step hzephyr hlimit hR hallowed hserves
    · exact fun s n c hR _ hnot => zephyrSem_wrong hzephyr hR hnot
  rw [← hreplies, zephyrRun, hinit]
  exact cons_reply_eq_ok

end Zephyr

section FreeRtos

variable {S : Type} {freeRtos : FreeRtos.SemaphoreKernel S} {countF : S → ℕ}

/-- The FreeRTOS semaphore has the tokens that are kept. -/
def Keeps (countF : S → ℕ) (s : FreeRtos.PosSem S) (t : Counts) : Prop :=
  t.kept ≤ 128 ∧ ∃ handle, s = { handle := some handle } ∧ countF handle = t.kept

/-- It has room for another token. -/
theorem counts_give_of_lt {t : Counts} (hlt : t.kept < 128) :
    (counts t .give).1.kept = t.kept + 1 := Nat.min_eq_left hlt

/-- Or it has not. -/
theorem counts_give_of_eq {t : Counts} (hmax : t.kept = 128) :
    (counts t .give).1.kept = t.kept := by
  show min (t.kept + 1) 128 = t.kept
  rw [hmax]
  rfl

variable (hdoc : freeRtos.Documented countF 128)
include hdoc

theorem freeRtosSem_step {s : FreeRtos.PosSem S} {t : Counts} {c : SemCall}
    (hR : Keeps countF s t) (hserves : FreeRtosServes b t c) :
    ∃ s', freeRtosSem freeRtos b s c = .ok (s', (counts t c).2) ∧
      Keeps countF s' (counts t c).1 := by
  obtain ⟨hkept, handle, rfl, hcount⟩ := hR
  cases c with
  | give =>
    rcases Nat.lt_or_ge t.kept 128 with hlt | hge
    · obtain ⟨handle', hgive, hcount'⟩ := FreeRtos.posSemGive_lt hdoc (hcount.trans_lt hlt)
      have hkept' := counts_give_of_lt hlt
      exact ⟨_, hgive, hkept'.trans_le hlt, handle', rfl, by rw [hcount', hcount, hkept']⟩
    · -- the give is lost, which is noticed only by an assertion
      have hndebug : b.ndebug = true := hserves.resolve_right (Nat.not_lt.mpr hge)
      obtain ⟨handle', hgive, hcount'⟩ :=
        FreeRtos.posSemGive_max (b := b) hdoc (hge.trans_eq hcount.symm)
      rw [if_pos hndebug] at hgive
      have hkept' := counts_give_of_eq (Nat.le_antisymm hkept hge)
      exact ⟨_, hgive, hkept'.trans_le hkept, handle', rfl, by rw [hcount', hcount, hkept']⟩
  | take =>
    have hle := t.kept_le
    have hless : (counts t .take).1.kept ≤ 128 := Nat.le_trans (Nat.sub_le t.kept 1) hkept
    rcases Nat.eq_zero_or_pos (countF handle) with hzero | hpos
    · -- no token has been lost, so none is missed
      have htokens : t.tokens = 0 := hserves.resolve_left (by omega)
      obtain ⟨handle', htake, hcount'⟩ := FreeRtos.posSemTake_zero (b := b) hdoc hzero
      have hreply : (counts t .take).2 = .timeout := by
        rw [counts_reply, htokens, semaphore_take_zero]
      refine ⟨_, by rw [hreply]; exact htake, hless, handle', rfl, ?_⟩
      simp only [counts]
      omega
    · obtain ⟨handle', htake, hcount'⟩ := FreeRtos.posSemTake_pos (b := b) hdoc hpos
      have hreply : (counts t .take).2 = .ok := by
        rw [counts_reply, semaphore, if_pos (by omega)]
      refine ⟨_, by rw [hreply]; exact htake, hless, handle', rfl, ?_⟩
      simp only [counts]
      omega

/-- The FreeRTOS port aborts on a give that it loses, and does not find a token that it has
lost. -/
theorem freeRtosSem_wrong {s : FreeRtos.PosSem S} {t : Counts} {c : SemCall}
    (hR : Keeps countF s t) (hnot : ¬FreeRtosServes b t c) (s' : FreeRtos.PosSem S) :
    freeRtosSem freeRtos b s c ≠ .ok (s', (counts t c).2) := by
  obtain ⟨-, handle, rfl, hcount⟩ := hR
  cases c with
  | give =>
    simp only [FreeRtosServes, not_or] at hnot
    have hmax : 128 ≤ countF handle := (Nat.not_lt.mp hnot.2).trans_eq hcount.symm
    obtain ⟨handle', hgive, -⟩ := FreeRtos.posSemGive_max (b := b) hdoc hmax
    rw [if_neg hnot.1] at hgive
    simp [freeRtosSem, hgive]
  | take =>
    -- there is a token, and the port has lost it
    simp only [FreeRtosServes, not_or] at hnot
    have hzero : countF handle = 0 := by omega
    obtain ⟨handle', htake, -⟩ := FreeRtos.posSemTake_zero (b := b) hdoc hzero
    have hreply : (counts t .take).2 = .ok := by
      rw [counts_reply, semaphore, if_pos (Nat.pos_of_ne_zero hnot.2)]
    simp [freeRtosSem, htake, hreply]

omit hdoc in
/-- A handle that is `NULL`, without assertions. -/
theorem freeRtosSem_null (hndebug : b.ndebug = true) (c : SemCall) :
    freeRtosSem freeRtos b { handle := none } c = .error .nullDeref := by
  cases c with
  | give => exact FreeRtos.posSemGive_null freeRtos hndebug
  | take => exact FreeRtos.posSemTake_null freeRtos hndebug 0

/-- Too many tokens for the kernel: without assertions only an unused semaphore does no harm. -/
theorem freeRtosRun_of_lt (hlt : 128 < tokens.toNat) :
    freeRtosRun freeRtos b tokens calls =
      if b.ndebug = true then
        if calls = [] then .ok [.ok] else .error .nullDeref
      else .error .assertion := by
  rw [freeRtosRun, FreeRtos.posSemInit_of_lt hdoc hlt]
  cases hn : b.ndebug with
  | false => rfl
  | true =>
    cases calls with
    | nil => rfl
    | cons c calls =>
      simp [replies, runCalls, freeRtosSem_null hn c, bind, Except.bind, Except.map]

/-- **The FreeRTOS port** replies as a semaphore should exactly if it can be created and no
token is missed; without assertions also if it cannot be created and is not used. -/
theorem freeRtos_replies_iff (hmemory : freeRtos.HasMemory 128) :
    freeRtosRun freeRtos b tokens calls = .ok (semRun tokens calls) ↔
      (tokens.toNat ≤ 128 ∧
        AlwaysCalls counts (FreeRtosServes b) (.ofTokens tokens.toNat) calls) ∨
      (128 < tokens.toNat ∧ b.ndebug = true ∧ calls = []) := by
  rcases Nat.lt_or_ge 128 tokens.toNat with hlt | hle
  -- the kernel does not create the semaphore
  · have hnot : ¬tokens.toNat ≤ 128 := Nat.not_le.mpr hlt
    rw [freeRtosRun_of_lt hdoc hlt]
    simp only [hnot, hlt, false_and, true_and, false_or]
    by_cases hn : b.ndebug = true
    · by_cases hcalls : calls = []
      · simp [hn, hcalls, semRun, specReplies]
      · simp [hn, hcalls]
    · simp [hn]
  · obtain ⟨handle, hinit, hcount⟩ := FreeRtos.posSemInit_of_le (b := b) hdoc hmemory hle
    have hkeeps : Keeps countF { handle := some handle } (.ofTokens tokens.toNat) :=
      ⟨hle, handle, rfl, hcount⟩
    have hreplies : replies (freeRtosSem freeRtos b) { handle := some handle } calls =
        .ok (specReplies counts (.ofTokens tokens.toNat) calls) ↔
          AlwaysCalls counts (FreeRtosServes b) (.ofTokens tokens.toNat) calls := by
      refine replies_eq_iff (FreeRtosServes b) (Keeps countF) ?_ ?_ hkeeps (alwaysCalls_true _ _)
      · exact fun s t c hR _ hserves => freeRtosSem_step hdoc hR hserves
      · exact fun s t c hR _ hnot => freeRtosSem_wrong hdoc hR hnot
    have hnot : ¬128 < tokens.toNat := Nat.not_lt.mpr hle
    rw [freeRtosRun, hinit]
    simp only [hle, hnot, true_and, false_and, or_false, ← hreplies, specReplies_counts]
    exact cons_reply_eq_ok

end FreeRtos

/-! ## All three -/

/-- **The three ports reply as a semaphore should** exactly if the initial tokens are 128 at
most and the ports reply alike to every call, or if assertions are compiled out and there
are no calls. -/
theorem ports_agree_iff {S Z : Type} {freeRtos : FreeRtos.SemaphoreKernel S} {countF : S → ℕ}
    (hfreeRtos : freeRtos.Documented countF 128) (hmemory : freeRtos.HasMemory 128)
    {zephyr : Zephyr.KSem Z} {countZ : Z → ℕ} {limit : ℕ}
    (hzephyr : zephyr.Documented countZ limit) (hlimit : 65535 ≤ limit)
    (b : Build) (looksFirst : Bool) (clock : ℕ → Posix.ClockReading)
    (hfits : AlwaysCalls semaphore FitsUInt16 tokens.toNat calls) :
    (posixRun looksFirst clock tokens calls = .ok (semRun tokens calls) ∧
      freeRtosRun freeRtos b tokens calls = .ok (semRun tokens calls) ∧
      zephyrRun zephyr limit tokens calls = .ok (semRun tokens calls)) ↔
    (tokens.toNat ≤ 128 ∧ AlwaysCalls counts (Alike b) (.ofTokens tokens.toNat) calls) ∨
      (128 < tokens.toNat ∧ b.ndebug = true ∧ calls = []) := by
  have hboth : AlwaysCalls counts (Alike b) (.ofTokens tokens.toNat) calls ↔
      AlwaysCalls semaphore ZephyrServes tokens.toNat calls ∧
        AlwaysCalls counts (FreeRtosServes b) (.ofTokens tokens.toNat) calls := by
    rw [alwaysCalls_congr alike_iff, alwaysCalls_and]
    exact and_congr_left' (alwaysCalls_counts _)
  rw [freeRtos_replies_iff hfreeRtos hmemory, zephyr_replies_iff hzephyr hlimit hfits, hboth]
  simp only [posix_replies looksFirst clock hfits, true_and]
  constructor
  · rintro ⟨⟨hle, hserves⟩ | hunused, hzephyr⟩
    · exact .inl ⟨hle, hzephyr, hserves⟩
    · exact .inr hunused
  · rintro (⟨hle, hzephyr, hserves⟩ | hunused)
    · exact ⟨.inl ⟨hle, hserves⟩, hzephyr⟩
    · refine ⟨.inr hunused, ?_⟩
      rw [hunused.2.2]
      trivial

/-- One token is taken, given and taken again. -/
theorem ports_agree_one_token :
    posixRun false default 1 [.take, .give, .take] = .ok (semRun 1 [.take, .give, .take]) ∧
      freeRtosRun FreeRtos.countingKernel ⟨false⟩ 1 [.take, .give, .take] =
        .ok (semRun 1 [.take, .give, .take]) ∧
      zephyrRun (Zephyr.countingKSem 65535) 65535 1 [.take, .give, .take] =
        .ok (semRun 1 [.take, .give, .take]) := by
  have hfits : AlwaysCalls semaphore FitsUInt16 (1 : UInt16).toNat [.take, .give, .take] := by
    simp [AlwaysCalls, FitsUInt16]
  refine (ports_agree_iff FreeRtos.countingKernel_documented FreeRtos.countingKernel_hasMemory
    (Zephyr.countingKSem_documented 65535) (Nat.le_refl 65535) ⟨false⟩ false _ hfits).mpr
      (.inl ⟨by simp, ?_⟩)
  simp [AlwaysCalls, Alike, counts, Counts.ofTokens]

end Poski.Ports
