import Poski.FreeRtos.Mutex
import Poski.Lib.ObjectRefinement
import Poski.Posix.MutexCall
import Poski.RtThread.Mutex
import Poski.Spec.Mutex
import Poski.Zephyr.Mutex

/-!
# Mutexes on Four Ports

Tasks lock one mutex without waiting and unlock it, in any order. The four ports grant the same
calls and refuse the same calls. They differ in the codes for the refused ones, and none of these
is the `POS_EBUSY` that `os_mutex.h` announces for a lock that "returned without waiting".

- `lockAfter`, `mutexAnswers` : what is granted, and what is answered
- `ServesMutex` : a port, and the codes that it answers refused calls with
- `mutex_answers` : what each port answers to any sequence of calls, and when these are the same
-/

namespace Poski.Ports

open Lib Spec

/-! ## What is answered -/

section

variable {ι : Type} [DecidableEq ι]

/-- The mutex after a call: a lock is granted if nobody else owns it, an unlock to the owner. -/
def lockAfter (l : RecLock ι) : ι × MutexCall → RecLock ι
  | (t, .lock) => if l = .free ∨ l.owner = some t then .held t l.count else l
  | (t, .unlock) => if l.owner = some t then l.release else l

def Granted (l : RecLock ι) : ι × MutexCall → Prop
  | (t, .lock) => l = .free ∨ l.owner = some t
  | (t, .unlock) => l.owner = some t

instance (l : RecLock ι) : ∀ c, Decidable (Granted l c)
  | (_, .lock) => inferInstanceAs (Decidable (_ ∨ _))
  | (_, .unlock) => inferInstanceAs (Decidable (_ = _))

/-- The codes for the calls that are refused. -/
structure RefusalCodes where
  lock : PosError
  unlock : PosError

def RefusalCodes.code (codes : RefusalCodes) : MutexCall → PosError
  | .lock => codes.lock
  | .unlock => codes.unlock

/-- A mutex that answers refused calls with these codes. -/
def mutexAnswers (codes : RefusalCodes) (l : RecLock ι) (c : ι × MutexCall) :
    RecLock ι × PosError :=
  (lockAfter l c, if Granted l c then .ok else codes.code c.2)

/-- After the call the mutex has not been locked more than `limit` times. -/
def Fits (limit : ℕ) (l : RecLock ι) (c : ι × MutexCall) : Prop := (lockAfter l c).count ≤ limit

/-- The codes do not matter to what is granted. -/
theorem alwaysCalls_mutexAnswers {codes codes' : RefusalCodes}
    {good : RecLock ι → ι × MutexCall → Prop} {l : RecLock ι} {calls : List (ι × MutexCall)} :
    AlwaysCalls (mutexAnswers codes) good l calls ↔
      AlwaysCalls (mutexAnswers codes') good l calls := by
  induction calls generalizing l with
  | nil => rfl
  | cons c calls ih => exact and_congr Iff.rfl ih

/-- If nothing is refused, the codes for the refused calls do not show. -/
theorem specReplies_of_granted {codes codes' : RefusalCodes} {l : RecLock ι}
    {calls : List (ι × MutexCall)} (h : AlwaysCalls (mutexAnswers codes) Granted l calls) :
    specReplies (mutexAnswers codes) l calls = specReplies (mutexAnswers codes') l calls := by
  induction calls generalizing l with
  | nil => rfl
  | cons c calls ih =>
    obtain ⟨hc, hrest⟩ := h
    rw [specReplies, specReplies, List.cons.injEq]
    refine ⟨?_, ih hrest⟩
    rw [mutexAnswers, mutexAnswers, if_pos hc, if_pos hc]

/-- If two ports answer alike that have different codes for all refused calls, none is refused. -/
theorem granted_of_specReplies {codes codes' : RefusalCodes}
    (hcode : ∀ c, codes.code c ≠ codes'.code c) {l : RecLock ι} {calls : List (ι × MutexCall)}
    (h : specReplies (mutexAnswers codes) l calls = specReplies (mutexAnswers codes') l calls) :
    AlwaysCalls (mutexAnswers codes) Granted l calls := by
  induction calls generalizing l with
  | nil => trivial
  | cons c calls ih =>
    rw [specReplies, specReplies, List.cons.injEq] at h
    refine ⟨?_, ih h.2⟩
    by_contra hc
    rw [mutexAnswers, mutexAnswers, if_neg hc, if_neg hc] at h
    exact hcode c.2 h.1

/-! ## The ports -/

/-- The calls of a port on a mutex in a state `s` that is the lock `l`, if `R s l`. -/
structure ServesMutex {σ : Type} (port : σ → ι × MutexCall → Except Halt (σ × PosError))
    (R : σ → RecLock ι → Prop) (limit : ℕ) (codes : RefusalCodes) : Prop where
  lock : ∀ s l t, R s l → l = .free ∨ l.owner = some t → l.count < limit →
    ∃ s', port s (t, .lock) = .ok (s', .ok) ∧ R s' (.held t l.count)
  lock_refused : ∀ s l t u, R s l → l.owner = some u → u ≠ t →
    ∃ s', port s (t, .lock) = .ok (s', codes.lock) ∧ R s' l
  unlock : ∀ s l t, R s l → l.owner = some t →
    ∃ s', port s (t, .unlock) = .ok (s', .ok) ∧ R s' l.release
  unlock_refused : ∀ s l t, R s l → l.owner ≠ some t →
    ∃ s', port s (t, .unlock) = .ok (s', codes.unlock) ∧ R s' l

/-- **Whole programs**: the port answers every sequence of calls. -/
theorem ServesMutex.replies_eq {σ : Type} {port : σ → ι × MutexCall → Except Halt (σ × PosError)}
    {R : σ → RecLock ι → Prop} {limit : ℕ} {codes : RefusalCodes}
    (h : ServesMutex port R limit codes) {s : σ} {l : RecLock ι} (hR : R s l)
    {calls : List (ι × MutexCall)} (hfits : AlwaysCalls (mutexAnswers codes) (Fits limit) l calls) :
    replies port s calls = .ok (specReplies (mutexAnswers codes) l calls) := by
  refine (replies_eq_iff (fun _ _ => True) R ?_ (fun _ _ _ _ _ hnot => absurd trivial hnot) hR
    hfits).mpr (alwaysCalls_true l calls)
  rintro s l ⟨t, c⟩ hR hfits -
  by_cases hgranted : Granted l (t, c)
  · rw [mutexAnswers, if_pos hgranted]
    cases c with
    | lock =>
      have hafter : lockAfter l (t, .lock) = .held t l.count := if_pos hgranted
      have hcount : (RecLock.held t l.count).count ≤ limit := hafter ▸ hfits
      rw [hafter]
      exact h.lock s l t hR hgranted hcount
    | unlock =>
      rw [show lockAfter l (t, .unlock) = l.release from if_pos hgranted]
      exact h.unlock s l t hR hgranted
  · rw [mutexAnswers, if_neg hgranted]
    cases c with
    | lock =>
      rw [show lockAfter l (t, .lock) = l from if_neg hgranted]
      have ⟨hheld, hother⟩ := not_or.mp hgranted
      cases l with
      | free => exact absurd rfl hheld
      | held u n => exact h.lock_refused s _ t u hR rfl fun heq => hother (congrArg some heq)
    | unlock =>
      rw [show lockAfter l (t, .unlock) = l from if_neg hgranted]
      exact h.unlock_refused s l t hR hgranted

end

/-- The POSIX port; `clock` reads the time of each call. -/
def posixMutex {ι : Type} [DecidableEq ι] (looksFirst : Bool) (clock : ℕ → Posix.ClockReading)
    (s : ℕ × RecLock ι) : ι × MutexCall → Except Halt ((ℕ × RecLock ι) × PosError)
  | (t, .lock) => do
    let (err, l) ← Posix.posMutexLock looksFirst (some (clock s.1)) s.2 t Posix.POS_TIME_NO_WAIT
    return ((s.1 + 1, l), err)
  | (t, .unlock) =>
    let (err, l) := Posix.OsMutex.posMutexUnlock s.2 t
    .ok ((s.1 + 1, l), err)

def freeRtosMutex {M ι : Type} (kernel : MutexKernel M ι ℤ FreeRtos.BaseType) (b : Build)
    (mu : Option (HandleMutex M)) :
    ι × MutexCall → Except Halt (Option (HandleMutex M) × PosError)
  | (t, .lock) => FreeRtos.posMutexLock kernel b false mu t 0
  | (t, .unlock) => FreeRtos.posMutexUnlock kernel b false mu t

def rtThreadMutex {M ι : Type} (kernel : MutexKernel M ι ℤ RtThread.RtErr) (b : Build)
    (mu : Option (HandleMutex M)) :
    ι × MutexCall → Except Halt (Option (HandleMutex M) × PosError)
  | (t, .lock) => RtThread.Mutex.posMutexLock kernel b mu t 0
  | (t, .unlock) => RtThread.Mutex.posMutexUnlock kernel b false mu t

def zephyrMutex {M ι : Type} (kernel : MutexKernel M ι Zephyr.KTimeout Int) (mutex : M) :
    ι × MutexCall → Except Halt (M × PosError)
  | (t, .lock) => Zephyr.posMutexLock kernel mutex t Zephyr.POS_TIME_NO_WAIT
  | (t, .unlock) => .ok (Zephyr.posMutexUnlock kernel mutex t)

/-- The codes that a POSIX program gets, that of `pos_mutex_init` first. -/
def posixMutexRun {ι : Type} [DecidableEq ι] (looksFirst : Bool) (clock : ℕ → Posix.ClockReading)
    (calls : List (ι × MutexCall)) : Except Halt (List PosError) := do
  let (err, l) := Posix.posMutexInit ι .success .success .success
  match l with
  | none => .ok [err]
  | some l => return err :: (← replies (posixMutex looksFirst clock) (0, l) calls)

/-- `mu` is what the memory of the mutex contains. -/
def freeRtosMutexRun {M ι : Type} (kernel : MutexKernel M ι ℤ FreeRtos.BaseType) (b : Build)
    (mu : HandleMutex M) (calls : List (ι × MutexCall)) : Except Halt (List PosError) := do
  let (mu, err) ← FreeRtos.posMutexInit kernel b (some mu)
  return err :: (← replies (freeRtosMutex kernel b) mu calls)

def rtThreadMutexRun {M ι : Type} (kernel : MutexKernel M ι ℤ RtThread.RtErr) (b : Build)
    (mu : HandleMutex M) (calls : List (ι × MutexCall)) : Except Halt (List PosError) := do
  let (mu, err) ← RtThread.Mutex.posMutexInit kernel b (some mu)
  return err :: (← replies (rtThreadMutex kernel b) mu calls)

def zephyrMutexRun {M ι : Type} (kernel : MutexKernel M ι Zephyr.KTimeout Int)
    (calls : List (ι × MutexCall)) : Except Halt (List PosError) := do
  let (mutex, err) := Zephyr.posMutexInit kernel
  match mutex with
  | none => .ok [err]
  | some mutex => return err :: (← replies (zephyrMutex kernel) mutex calls)

/-! ## Each port serves -/

section

variable {ι : Type} [DecidableEq ι] {limit : ℕ} {b : Build}

theorem posix_servesMutex (looksFirst : Bool) (clock : ℕ → Posix.ClockReading)
    (hlimit : limit ≤ Posix.mutexLimit) :
    ServesMutex (posixMutex (ι := ι) looksFirst clock) (fun s l => s.2 = l) limit
      ⟨.timeout, .errPriv⟩ where
  lock := by
    rintro ⟨n, l⟩ _ t rfl hl hcount
    have hlock : l.lock Posix.mutexLimit t = some (.held t l.count) :=
      if_pos ⟨hl, hcount.trans_le hlimit⟩
    refine ⟨(n + 1, .held t l.count), ?_, rfl⟩
    simp [posixMutex, Posix.posMutexLock_noWait_of_lock hlock, bind, Except.bind, pure, Except.pure]
  lock_refused := by
    rintro ⟨n, l⟩ _ t u rfl howner hu
    refine ⟨(n + 1, l), ?_, rfl⟩
    simp [posixMutex, Posix.posMutexLock_noWait_of_owner howner hu, bind, Except.bind, pure,
      Except.pure]
  unlock := by
    rintro ⟨n, l⟩ _ t rfl howner
    have hunlock : Posix.OsMutex.posMutexUnlock l t = (.ok, l.release) :=
      Posix.OsMutex.posMutexUnlock_eq_ok.mpr (if_pos howner)
    exact ⟨(n + 1, l.release), by simp [posixMutex, hunlock], rfl⟩
  unlock_refused := by
    rintro ⟨n, l⟩ _ t rfl howner
    have hunlock : l.unlock t = none := RecLock.unlock_eq_none.mpr howner
    refine ⟨(n + 1, l), ?_, rfl⟩
    simp [posixMutex, Posix.OsMutex.posMutexUnlock, hunlock, Posix.mapPosixToOsalError]

/-- A mutex behind a handle. -/
def Behind {M : Type} (lock : M → RecLock ι) (mu : Option (HandleMutex M)) (l : RecLock ι) : Prop :=
  ∃ m, mu = some { handle := some m } ∧ lock m = l

omit [DecidableEq ι] in
/-- Ports whose calls only look whether the native call has been a success. -/
theorem servesMutex_behind {M Ret : Type} [DecidableEq Ret] {kernel : MutexKernel M ι ℤ Ret}
    {lock : M → RecLock ι} {success : Ret} {codes : RefusalCodes}
    {port : Option (HandleMutex M) → ι × MutexCall →
      Except Halt (Option (HandleMutex M) × PosError)}
    (hdoc : kernel.Documented lock limit 0 success (· ≠ success) (· ≠ success))
    (hlock : ∀ m t m' ret, kernel.take m t 0 = .ok (m', ret) →
      port (some { handle := some m }) (t, .lock) =
        .ok (some { handle := some m' }, if ret = success then .ok else codes.lock))
    (hunlock : ∀ m t m' ret, kernel.give m t = (m', ret) →
      port (some { handle := some m }) (t, .unlock) =
        .ok (some { handle := some m' }, if ret ≠ success then codes.unlock else .ok)) :
    ServesMutex port (Behind lock) limit codes where
  lock := by
    rintro _ _ t ⟨m, rfl, rfl⟩ hl hcount
    obtain ⟨m', htake, hm'⟩ := hdoc.take m t 0 hl hcount
    exact ⟨_, (hlock m t m' success htake).trans (by rw [if_pos rfl]), m', rfl, hm'⟩
  lock_refused := by
    rintro _ _ t u ⟨m, rfl, rfl⟩ howner hu
    obtain ⟨m', ret, htake, hbusy, hm'⟩ := hdoc.take_busy m t u howner hu
    exact ⟨_, (hlock m t m' ret htake).trans (by rw [if_neg hbusy]), m', rfl, hm'⟩
  unlock := by
    rintro _ _ t ⟨m, rfl, rfl⟩ howner
    obtain ⟨m', hgive, hm'⟩ := hdoc.give m t howner
    exact ⟨_, (hunlock m t m' success hgive).trans (by rw [if_neg (not_not.mpr rfl)]), m', rfl,
      hm'⟩
  unlock_refused := by
    rintro _ _ t ⟨m, rfl, rfl⟩ howner
    obtain ⟨m', ret, hgive, hdenied, hm'⟩ := hdoc.give_denied m t howner
    exact ⟨_, (hunlock m t m' ret hgive).trans (by rw [if_pos hdenied]), m', rfl, hm'⟩

omit [DecidableEq ι] in
theorem freeRtos_servesMutex {M : Type} {kernel : MutexKernel M ι ℤ FreeRtos.BaseType}
    {lock : M → RecLock ι}
    (hdoc : kernel.Documented lock limit 0 FreeRtos.pdPASS (· ≠ FreeRtos.pdPASS)
      (· ≠ FreeRtos.pdPASS)) :
    ServesMutex (freeRtosMutex kernel b) (Behind lock) limit ⟨.timeout, .badMutex⟩ :=
  servesMutex_behind hdoc (fun _ _ _ _ htake => FreeRtos.posMutexLock_of_take htake)
    fun _ _ _ _ hgive => FreeRtos.posMutexUnlock_of_give hgive

omit [DecidableEq ι] in
theorem rtThread_servesMutex {M : Type} {kernel : MutexKernel M ι ℤ RtThread.RtErr}
    {lock : M → RecLock ι}
    (hdoc : kernel.Documented lock limit 0 RtThread.RT_EOK (· ≠ RtThread.RT_EOK)
      (· ≠ RtThread.RT_EOK)) :
    ServesMutex (rtThreadMutex kernel b) (Behind lock) limit ⟨.badMutex, .badMutex⟩ :=
  servesMutex_behind hdoc (fun _ _ _ _ htake => RtThread.Mutex.posMutexLock_of_take htake)
    fun _ _ _ _ hgive => RtThread.Mutex.posMutexUnlock_of_give hgive

omit [DecidableEq ι] in
theorem zephyr_servesMutex {M : Type} {kernel : MutexKernel M ι Zephyr.KTimeout Int}
    {lock : M → RecLock ι}
    (hdoc : kernel.Documented lock limit .noWait 0 (· = -Zephyr.EBUSY) (· ≠ 0)) :
    ServesMutex (zephyrMutex kernel) (fun m l => lock m = l) limit ⟨.error, .error⟩ where
  lock := by
    rintro m _ t rfl hl hcount
    obtain ⟨m', htake, hm'⟩ := hdoc.take m t .noWait hl hcount
    exact ⟨m', (Zephyr.posMutexLock_noWait htake).trans (by simp), hm'⟩
  lock_refused := by
    rintro m _ t u rfl howner hu
    obtain ⟨m', ret, htake, rfl, hm'⟩ := hdoc.take_busy m t u howner hu
    -- `-EBUSY` is neither 0 nor `-EAGAIN`
    exact ⟨m', Zephyr.posMutexLock_noWait htake, hm'⟩
  unlock := by
    rintro m _ t rfl howner
    obtain ⟨m', hgive, hm'⟩ := hdoc.give m t howner
    exact ⟨m', by simp [zephyrMutex, Zephyr.posMutexUnlock, hgive], hm'⟩
  unlock_refused := by
    rintro m _ t rfl howner
    obtain ⟨m', ret, hgive, hdenied, hm'⟩ := hdoc.give_denied m t howner
    exact ⟨m', by simp [zephyrMutex, Zephyr.posMutexUnlock, hgive, hdenied], hm'⟩

end

/-! ## All ports -/

section

variable {ι F R Z : Type} [DecidableEq ι] {limit : ℕ}
  {freeRtos : MutexKernel F ι ℤ FreeRtos.BaseType} {lockF : F → RecLock ι}
  {rtThread : MutexKernel R ι ℤ RtThread.RtErr} {lockR : R → RecLock ι}
  {zephyr : MutexKernel Z ι Zephyr.KTimeout Int} {lockZ : Z → RecLock ι}

/-- **Four ports**: to any sequence of locks that do not wait and of unlocks, by any tasks, they
grant the same calls. The POSIX port answers the refused ones with `POS_TIMEOUT` and
`POS_ERR_PRIV`, FreeRTOS with `POS_TIMEOUT` and `POS_BAD_MUTEX`, RT-Thread with `POS_BAD_MUTEX`,
Zephyr with `POS_ERROR`. So a program gets the same codes on all of them exactly if no call of it
is refused. -/
theorem mutex_answers (hlimit : limit ≤ Posix.mutexLimit)
    (hfreeRtos : freeRtos.Documented lockF limit 0 FreeRtos.pdPASS (· ≠ FreeRtos.pdPASS)
      (· ≠ FreeRtos.pdPASS))
    (hrtThread : rtThread.Documented lockR limit 0 RtThread.RT_EOK (· ≠ RtThread.RT_EOK)
      (· ≠ RtThread.RT_EOK))
    (hzephyr : zephyr.Documented lockZ limit .noWait 0 (· = -Zephyr.EBUSY) (· ≠ 0))
    {mF : F} (hcreateF : freeRtos.create = some mF) {mR : R} (hcreateR : rtThread.create = some mR)
    {mZ : Z} (hcreateZ : zephyr.create = some mZ) (b : Build) (looksFirst : Bool)
    (clock : ℕ → Posix.ClockReading)
    (muF : HandleMutex F) (muR : HandleMutex R) {calls : List (ι × MutexCall)}
    (hfits : AlwaysCalls (mutexAnswers ⟨.timeout, .errPriv⟩) (Fits limit) .free calls) :
    (posixMutexRun looksFirst clock calls =
        .ok (.ok :: specReplies (mutexAnswers ⟨.timeout, .errPriv⟩) .free calls) ∧
      freeRtosMutexRun freeRtos b muF calls =
        .ok (.ok :: specReplies (mutexAnswers ⟨.timeout, .badMutex⟩) .free calls) ∧
      rtThreadMutexRun rtThread b muR calls =
        .ok (.ok :: specReplies (mutexAnswers ⟨.badMutex, .badMutex⟩) .free calls) ∧
      zephyrMutexRun zephyr calls =
        .ok (.ok :: specReplies (mutexAnswers ⟨.error, .error⟩) .free calls)) ∧
    ((posixMutexRun looksFirst clock calls = freeRtosMutexRun freeRtos b muF calls ∧
        posixMutexRun looksFirst clock calls = rtThreadMutexRun rtThread b muR calls ∧
        posixMutexRun looksFirst clock calls = zephyrMutexRun zephyr calls) ↔
      AlwaysCalls (mutexAnswers ⟨.timeout, .errPriv⟩) Granted .free calls) := by
  have hposix : posixMutexRun looksFirst clock calls =
      .ok (.ok :: specReplies (mutexAnswers ⟨.timeout, .errPriv⟩) .free calls) := by
    have hinit : Posix.posMutexInit ι .success .success .success = (.ok, some .free) := rfl
    simp only [posixMutexRun, hinit]
    exact cons_reply_eq_ok.mpr ((posix_servesMutex looksFirst clock hlimit).replies_eq rfl hfits)
  have hF : freeRtosMutexRun freeRtos b muF calls =
      .ok (.ok :: specReplies (mutexAnswers ⟨.timeout, .badMutex⟩) .free calls) := by
    have hinit : FreeRtos.posMutexInit freeRtos b (some muF) =
        .ok (some { handle := some mF }, .ok) := initHandle_of_create muF hcreateF
    simp only [freeRtosMutexRun, hinit]
    exact cons_reply_eq_ok.mpr ((freeRtos_servesMutex hfreeRtos).replies_eq
      ⟨mF, rfl, hfreeRtos.create mF hcreateF⟩ (alwaysCalls_mutexAnswers.mp hfits))
  have hR : rtThreadMutexRun rtThread b muR calls =
      .ok (.ok :: specReplies (mutexAnswers ⟨.badMutex, .badMutex⟩) .free calls) := by
    have hinit : RtThread.Mutex.posMutexInit rtThread b (some muR) =
        .ok (some { handle := some mR }, .ok) := initHandle_of_create muR hcreateR
    simp only [rtThreadMutexRun, hinit]
    exact cons_reply_eq_ok.mpr ((rtThread_servesMutex hrtThread).replies_eq
      ⟨mR, rfl, hrtThread.create mR hcreateR⟩ (alwaysCalls_mutexAnswers.mp hfits))
  have hZ : zephyrMutexRun zephyr calls =
      .ok (.ok :: specReplies (mutexAnswers ⟨.error, .error⟩) .free calls) := by
    simp only [zephyrMutexRun, Zephyr.posMutexInit, hcreateZ]
    exact cons_reply_eq_ok.mpr ((zephyr_servesMutex hzephyr).replies_eq
      (hzephyr.create mZ hcreateZ) (alwaysCalls_mutexAnswers.mp hfits))
  refine ⟨⟨hposix, hF, hR, hZ⟩, ?_⟩
  rw [hposix, hF, hR, hZ]
  simp only [Except.ok.injEq, List.cons.injEq, true_and]
  constructor
  · rintro ⟨-, -, hsame⟩
    refine granted_of_specReplies (fun c => ?_) hsame
    cases c <;> simp [RefusalCodes.code]
  · intro hgranted
    exact ⟨specReplies_of_granted hgranted, specReplies_of_granted hgranted,
      specReplies_of_granted hgranted⟩

end

/-- One task locks twice, the other one is refused a lock and an unlock and locks in the end. -/
theorem mutex_answers_two_tasks :
    let calls : List (Bool × MutexCall) :=
      [(false, .lock), (true, .lock), (false, .lock), (true, .unlock), (false, .unlock),
        (false, .unlock), (true, .lock)]
    (posixMutexRun true default calls =
        .ok [.ok, .ok, .timeout, .ok, .errPriv, .ok, .ok, .ok] ∧
      freeRtosMutexRun (lockKernel 2 4294967295 1 0 0) ⟨false⟩ ⟨none⟩ calls =
        .ok [.ok, .ok, .timeout, .ok, .badMutex, .ok, .ok, .ok] ∧
      rtThreadMutexRun (lockKernel 2 (-1) 0 (-2) (-1)) ⟨false⟩ ⟨none⟩ calls =
        .ok [.ok, .ok, .badMutex, .ok, .badMutex, .ok, .ok, .ok] ∧
      zephyrMutexRun (lockKernel 2 .forever 0 (-16) (-1)) calls =
        .ok [.ok, .ok, .error, .ok, .error, .ok, .ok, .ok]) ∧
    ((posixMutexRun true default calls =
          freeRtosMutexRun (lockKernel 2 4294967295 1 0 0) ⟨false⟩ ⟨none⟩ calls ∧
        posixMutexRun true default calls =
          rtThreadMutexRun (lockKernel 2 (-1) 0 (-2) (-1)) ⟨false⟩ ⟨none⟩ calls ∧
        posixMutexRun true default calls =
          zephyrMutexRun (lockKernel 2 .forever 0 (-16) (-1)) calls) ↔
      AlwaysCalls (mutexAnswers ⟨.timeout, .errPriv⟩) Granted .free calls) :=
  mutex_answers (by decide) (lockKernel_documented (by decide) (by decide) (by decide))
    (lockKernel_documented (by decide) (by decide) (by decide))
    (lockKernel_documented (by decide) rfl (by decide)) rfl rfl rfl ⟨false⟩ true default ⟨none⟩
    ⟨none⟩ (by simp [AlwaysCalls, Fits, mutexAnswers, lockAfter, RecLock.release])

end Poski.Ports
