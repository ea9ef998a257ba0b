import Poski.Posix.OsSemaphore
import Poski.Spec.TokenLimit

/-!
# The Semaphore Class Limits

The methods of `OsSemaphore` take effect in one statement, the native call; what they write to
`take_depth_` does not matter to their callers. So no more tasks hold a token than the object
has been made with, if every task gives only what it has taken.

- `osSemaphore_limits` : `OsSemaphore::Take` and `OsSemaphore::Give`
-/

namespace Poski.Posix.OsSemaphore

open Lib Spec

universe u

variable {ι : Type u} [DecidableEq ι] {initialTokens : UInt16} {s s' : State ι} {a : Act ι}

/-- The calls and replies among the steps. -/
def Act.seen {ι : Type u} : Act ι → Option (HistoryEvent ι SemCall PosError)
  | .callTake t => some (.call t .take)
  | .callGive t => some (.call t .give)
  | .return t err => some (.reply t err)
  | _ => none

/-- How far the operation of a task at this place is. -/
def Pc.phase : Pc → OpPhase SemCall PosError
  | .idle => .idle
  | .take => .called .take
  | .give => .called .give
  | .increment | .decrement => .done .ok
  | .takeExit err | .giveExit err => .done err

/-- Every operation is where its task is. -/
def State.atomic {ι : Type u} (s : State ι) : AtomicState ℕ ι SemCall PosError :=
  .ofPlaces Pc.phase s.sem.count s.pc

variable {n₀ : ℕ}

/-- The operation of `t` takes effect. -/
theorem atomicStep_effect {t : ι} {p p' : Pc} {c : SemCall} {err : PosError} {sem : SemT}
    (hpc : s.pc t = p) (hp : p.phase = .called c)
    (hstep : TokenStep SEM_VALUE_MAX s.sem.count ⟨t, c, err⟩ sem.count)
    (hp' : p'.phase = .done err) :
    AtomicStep (countingSemaphore ι SEM_VALUE_MAX n₀) s.atomic (.effect t c err)
      (State.goto { s with sem := sem } t p').atomic :=
  .effectPlace ((congrArg Pc.phase hpc).trans hp) hstep hp'

/-- A statement is a call, a reply, the effect of an operation, or nothing to be seen. -/
theorem Step.answer (h : Step s a s') :
    (a.seen = none ∧ s'.atomic = s.atomic) ∨
      ∃ e, AtomicStep (countingSemaphore ι SEM_VALUE_MAX n₀) s.atomic e s'.atomic ∧
        e.seen = a.seen := by
  cases h
  case callTake t hpc => exact .inr ⟨_, .callPlace (congrArg Pc.phase hpc) rfl, rfl⟩
  case callGive t hpc => exact .inr ⟨_, .callPlace (congrArg Pc.phase hpc) rfl, rfl⟩
  case take t sem hpc htake =>
    have hstep : TokenStep SEM_VALUE_MAX s.sem.count ⟨t, .take, .ok⟩ sem.count := by
      rw [CountingSem.take_eq_some.mp htake]
      exact .take
    exact .inr ⟨_, atomicStep_effect hpc rfl hstep rfl, rfl⟩
  case takeFails t err hpc herr =>
    exact .inr ⟨_, atomicStep_effect hpc rfl (.takeRefused herr) rfl, rfl⟩
  case give t sem hpc hgive =>
    have hcount := posSemGive_eq_ok.mp hgive
    have hstep : TokenStep SEM_VALUE_MAX s.sem.count ⟨t, .give, .ok⟩ sem.count := by
      rw [hcount]
      refine .give ?_
      have hle := sem.count_le
      omega
    exact .inr ⟨_, atomicStep_effect hpc rfl hstep rfl, rfl⟩
  case giveFails t sem err hpc hgive herr =>
    obtain ⟨hfull, rfl⟩ := posSemGive_fails hgive herr
    exact .inr ⟨_, atomicStep_effect hpc rfl (.giveRefused hfull.ge herr) rfl, rfl⟩
  case returnTake t err hpc => exact .inr ⟨_, .replyPlace (congrArg Pc.phase hpc) rfl, rfl⟩
  case returnGive t err hpc => exact .inr ⟨_, .replyPlace (congrArg Pc.phase hpc) rfl, rfl⟩
  -- the writes to the depth do not show
  all_goals
    refine .inl ⟨rfl, AtomicState.ofPlaces_update_of_eq ?_⟩
    simp_all [Pc.phase]

/-- The atomic semaphore simulates the statements of `Take` and `Give`. -/
theorem atomicObject_simulates_osSemaphore (initialTokens : UInt16) (m : OsSemaphore) :
    ForwardSimulation ((osSemaphore initialTokens ι).startingAt (fun s => s.toOsSemaphore) m)
      (fun _ _ => True) (atomicObject (countingSemaphore ι SEM_VALUE_MAX m.sem.count)) Act.seen
      ObjEvent.seen fun s q => q = s.atomic where
  init s hinit := by
    obtain ⟨⟨-, hidle⟩, hsame⟩ := hinit
    exact ⟨s.atomic, ⟨congrArg (fun m : OsSemaphore => m.sem.count) hsame,
      fun t => congrArg Pc.phase (hidle t)⟩, rfl⟩
  step s a s' q hR _ hstep := by
    rw [hR]
    rcases Step.answer hstep with ⟨hseen, hsame⟩ | ⟨e, hatomic, hseen⟩
    · exact .inl ⟨hseen, hsame.symm⟩
    · exact .inr ⟨e, _, hatomic, hseen, rfl⟩

/-- **`OsSemaphore` limits**: in every run from a constructed object `m` on, its operations take
effect one after the other as those of a semaphore with the tokens that the constructor has
left, and if no task gives what it has not taken, the tasks that can tell that they hold a
token, with the take on construction, are no more than the initial tokens. -/
theorem osSemaphore_limits {m : OsSemaphore} {as : List (Act ι)}
    (hrun : ((osSemaphore initialTokens ι).startingAt (fun s => s.toOsSemaphore) m).Run
      (fun _ _ => True) as s) :
    (∃ looksFirst clock takeOnConstruction timeout,
      construct ⟨false⟩ looksFirst clock initialTokens takeOnConstruction timeout = .ok m) ∧
    (∃ es, Linearization (countingSemaphore ι SEM_VALUE_MAX m.sem.count)
      (as.filterMap Act.seen) es s.sem.count) ∧
    ((∀ t, GivesOwn t (as.filterMap Act.seen)) →
      ∀ ts : Finset ι, (∀ t ∈ ts, TellsHolding t (as.filterMap Act.seen)) →
        (ts.card : ℤ) + m.takeDepth.toInt ≤ initialTokens.toNat) := by
  obtain ⟨s₀, ⟨⟨⟨looksFirst, clock, takeOnConstruction, timeout, hnew⟩, -⟩, rfl⟩, -⟩ :=
    hrun.exists_startingAt fun s => s.toOsSemaphore
  obtain ⟨es, _, hlin, rfl⟩ :=
    linearization_of_simulation (atomicObject_simulates_osSemaphore initialTokens _) hrun
  refine ⟨⟨looksFirst, clock, takeOnConstruction, timeout, hnew⟩, ⟨es, hlin⟩, fun hown ts hts => ?_⟩
  have htokens : (s₀.sem.count : ℤ) + s₀.takeDepth.toInt = initialTokens.toNat :=
    tokens_of_construct hnew
  have hcard : ts.card ≤ s₀.sem.count := card_holding_le hlin hown hts
  show (ts.card : ℤ) + s₀.takeDepth.toInt ≤ initialTokens.toNat
  omega

/-- Of two tokens one is taken on construction, one task takes the other, gives it back and takes
it again, and a second task has to give up. -/
theorem osSemaphore_limits_two :
    ∃ (m : OsSemaphore) (as : List (Act Bool)) (s : State Bool),
      m.sem.count = 1 ∧ TellsHolding true (as.filterMap Act.seen) ∧
      (∀ t, GivesOwn t (as.filterMap Act.seen)) ∧
      (∃ looksFirst clock takeOnConstruction timeout,
        construct ⟨false⟩ looksFirst clock 2 takeOnConstruction timeout = .ok m) ∧
      (∃ es, Linearization (countingSemaphore Bool SEM_VALUE_MAX m.sem.count)
        (as.filterMap Act.seen) es s.sem.count) ∧
      ((∀ t, GivesOwn t (as.filterMap Act.seen)) →
        ∀ ts : Finset Bool, (∀ t ∈ ts, TellsHolding t (as.filterMap Act.seen)) →
          (ts.card : ℤ) + m.takeDepth.toInt ≤ (2 : UInt16).toNat) := by
  let m : OsSemaphore := { sem := ⟨1, by decide⟩, takeDepth := 1 }
  have h0 : ((osSemaphore 2 Bool).startingAt (fun s => s.toOsSemaphore) m).Run (fun _ _ => True) []
      { m with pc := fun _ => .idle } :=
    .start ⟨⟨⟨false, none, true, POS_TIME_FOREVER, rfl⟩, fun _ => rfl⟩, rfl⟩
  have h1 := h0.next (.callTake true) trivial (.callTake rfl)
  have h2 := h1.next (.callTake false) trivial (.callTake rfl)
  have h3 := h2.next (.take true .ok) trivial (.take rfl rfl)
  have h4 := h3.next (.take false .timeout) trivial (.takeFails rfl (by decide))
  have h5 := h4.next (.increment true) trivial (.increment rfl)
  have h6 := h5.next (.return true .ok) trivial (.returnTake rfl)
  have h7 := h6.next (.callGive true) trivial (.callGive rfl)
  have h8 := h7.next (.give true .ok) trivial (.give rfl rfl)
  have h9 := h8.next (.return false .timeout) trivial (.returnTake rfl)
  have h10 := h9.next (.decrement true) trivial (.decrement rfl)
  have h11 := h10.next (.return true .ok) trivial (.returnGive rfl)
  have h12 := h11.next (.callTake true) trivial (.callTake rfl)
  have h13 := h12.next (.take true .ok) trivial (.take rfl rfl)
  have h14 := h13.next (.increment true) trivial (.increment rfl)
  have h15 := h14.next (.return true .ok) trivial (.returnTake rfl)
  exact ⟨m, _, _, rfl, by decide, by decide, osSemaphore_limits h15⟩

end Poski.Posix.OsSemaphore
