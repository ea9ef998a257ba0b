import Mathlib.Logic.Function.Basic
import Poski.Lib.ObjectRefinement
import Poski.Lib.TransitionSystem

/-!
# Linearizability

Several tasks use one object. An operation begins with a call and ends with a reply, and in
between other tasks may do anything. The object is **linearizable** if every operation can be
thought to take effect at one moment between its call and its reply, so that the effects, in
their order, are a run of the object used by one task alone.

An object used by one task is a transition system whose labels are whole operations
(`Effect`). What is seen of concurrent operations is a history of calls and replies.

## Main results

- `Linearization` : moments at which the operations of a history take effect
- `atomicObject` : the object whose operations take effect in one step
- `linearization_of_simulation` : what it simulates is linearizable
- `Linearization.of_task`, `Linearization.completed_prefix` : the operations of one task
- `runCalls_of_run` : objects that answer calls by a function
-/

namespace Poski.Lib

open TransitionSystem

universe u v w x

variable {σ : Type u} {ι : Type v} {κ : Type w} {ρ : Type x}

/-- A whole operation. -/
structure Effect (ι : Type v) (κ : Type w) (ρ : Type x) where
  task : ι
  call : κ
  reply : ρ
  deriving DecidableEq

/-- The operation, whoever has executed it. -/
def Effect.op (f : Effect ι κ ρ) : κ × ρ := (f.call, f.reply)

/-- What is seen of an operation. -/
inductive HistoryEvent (ι : Type v) (κ : Type w) (ρ : Type x) where
  | call (t : ι) (c : κ)
  | reply (t : ι) (r : ρ)
  deriving DecidableEq

namespace HistoryEvent

def task : HistoryEvent ι κ ρ → ι
  | call t _ | reply t _ => t

def called : HistoryEvent ι κ ρ → Option κ
  | call _ c => some c
  | reply _ _ => none

def replied : HistoryEvent ι κ ρ → Option ρ
  | call _ _ => none
  | reply _ r => some r

end HistoryEvent

/-- What happens in an operation. -/
inductive ObjEvent (ι : Type v) (κ : Type w) (ρ : Type x) where
  | call (t : ι) (c : κ)
  | effect (t : ι) (c : κ) (r : ρ)
  | reply (t : ι) (r : ρ)
  deriving DecidableEq

namespace ObjEvent

def task : ObjEvent ι κ ρ → ι
  | call t _ | effect t _ _ | reply t _ => t

def seen : ObjEvent ι κ ρ → Option (HistoryEvent ι κ ρ)
  | call t c => some (.call t c)
  | effect _ _ _ => none
  | reply t r => some (.reply t r)

def takesEffect : ObjEvent ι κ ρ → Option (Effect ι κ ρ)
  | effect t c r => some ⟨t, c, r⟩
  | _ => none

end ObjEvent

/-- How far a task is with its operation. -/
inductive OpPhase (κ : Type w) (ρ : Type x) where
  | idle
  | called (c : κ)
  | done (r : ρ)
  deriving DecidableEq

namespace OpPhase

/-- The call that has not taken effect yet. -/
def pending : OpPhase κ ρ → List κ
  | called c => [c]
  | _ => []

/-- The reply that has not been given yet. -/
def owed : OpPhase κ ρ → List ρ
  | done r => [r]
  | _ => []

end OpPhase

/-- The events of one task: one operation after the other, each called, then taking effect,
then replying. -/
inductive Ops : List (ObjEvent ι κ ρ) → OpPhase κ ρ → Prop where
  | nil : Ops [] .idle
  | call {es : List (ObjEvent ι κ ρ)} {t : ι} {c : κ} (h : Ops es .idle) :
      Ops (es ++ [.call t c]) (.called c)
  | effect {es : List (ObjEvent ι κ ρ)} {t : ι} {c : κ} {r : ρ} (h : Ops es (.called c)) :
      Ops (es ++ [.effect t c r]) (.done r)
  | reply {es : List (ObjEvent ι κ ρ)} {t : ι} {r : ρ} (h : Ops es (.done r)) :
      Ops (es ++ [.reply t r]) .idle

variable [DecidableEq ι]

/-- The events of one task. -/
def eventsOf (t : ι) (es : List (ObjEvent ι κ ρ)) : List (ObjEvent ι κ ρ) :=
  es.filter fun e => e.task = t

/-- `es` adds to the calls and replies of `history` the moments at which the operations take
effect. These are a run of `obj`, which it leaves in the state `x`. -/
structure Linearization (obj : TransitionSystem σ (Effect ι κ ρ))
    (history : List (HistoryEvent ι κ ρ)) (es : List (ObjEvent ι κ ρ)) (x : σ) : Prop where
  seen : es.filterMap ObjEvent.seen = history
  effects : obj.Run (fun _ _ => True) (es.filterMap ObjEvent.takesEffect) x
  ops : ∀ t, ∃ p, Ops (eventsOf t es) p

/-! ## The atomic object -/

/-- The object, and how far the tasks are. -/
structure AtomicState (σ : Type u) (ι : Type v) (κ : Type w) (ρ : Type x) where
  obj : σ
  phase : ι → OpPhase κ ρ

/-- An operation takes effect in one step, some time after its call. -/
inductive AtomicStep (obj : TransitionSystem σ (Effect ι κ ρ)) :
    AtomicState σ ι κ ρ → ObjEvent ι κ ρ → AtomicState σ ι κ ρ → Prop where
  | call {q : AtomicState σ ι κ ρ} {t : ι} {c : κ} (hphase : q.phase t = .idle) :
      AtomicStep obj q (.call t c) { q with phase := Function.update q.phase t (.called c) }
  | effect {q : AtomicState σ ι κ ρ} {t : ι} {c : κ} {r : ρ} {x : σ}
      (hphase : q.phase t = .called c) (hobj : obj.step q.obj ⟨t, c, r⟩ x) :
      AtomicStep obj q (.effect t c r)
        { obj := x, phase := Function.update q.phase t (.done r) }
  | reply {q : AtomicState σ ι κ ρ} {t : ι} {r : ρ} (hphase : q.phase t = .done r) :
      AtomicStep obj q (.reply t r) { q with phase := Function.update q.phase t .idle }

/-- The object whose operations take effect in one step. -/
def atomicObject (obj : TransitionSystem σ (Effect ι κ ρ)) :
    TransitionSystem (AtomicState σ ι κ ρ) (ObjEvent ι κ ρ) where
  init q := obj.init q.obj ∧ ∀ t, q.phase t = .idle
  step := AtomicStep obj

variable {obj : TransitionSystem σ (Effect ι κ ρ)} {P : AtomicState σ ι κ ρ → ObjEvent ι κ ρ → Prop}
  {q : AtomicState σ ι κ ρ} {es : List (ObjEvent ι κ ρ)}

/-- Its effects are a run of the object. -/
theorem atomicObject_effects (hrun : (atomicObject obj).Run P es q) :
    obj.Run (fun _ _ => True) (es.filterMap ObjEvent.takesEffect) q.obj := by
  have hsim : Simulation (atomicObject obj) P obj ObjEvent.takesEffect fun q x => q.obj = x := by
    refine ⟨fun q hinit => ⟨_, hinit.1, rfl⟩, ?_, ?_⟩
    · intro q e q' x hR _ hstep hnone
      cases hstep with
      | call | reply => exact hR
      | effect => cases hnone
    · intro q e q' x f hR _ hstep hsome
      cases hstep with
      | call | reply => cases hsome
      | effect hphase hobj =>
        cases hsome
        exact ⟨_, hR ▸ hobj, rfl⟩
  obtain ⟨x, hobj, hx⟩ := hsim.run hrun
  exact hx ▸ hobj

theorem eventsOf_snoc (t : ι) (es : List (ObjEvent ι κ ρ)) (e : ObjEvent ι κ ρ) :
    eventsOf t (es ++ [e]) = if e.task = t then eventsOf t es ++ [e] else eventsOf t es := by
  by_cases he : e.task = t <;> simp [eventsOf, he]

/-- Each task's operations follow one another. -/
theorem atomicObject_ops (hrun : (atomicObject obj).Run P es q) (t : ι) :
    Ops (eventsOf t es) (q.phase t) := by
  refine hrun.invariant (I := fun es q => Ops (eventsOf t es) (q.phase t)) ?_ ?_
  · intro q hinit
    rw [hinit.2 t]
    exact .nil
  · intro es q e q' hops _ hstep
    rw [eventsOf_snoc]
    by_cases he : e.task = t
    · subst he
      rw [if_pos rfl]
      cases hstep with
      | call hphase =>
        rw [ObjEvent.task, hphase] at hops
        simpa [ObjEvent.task] using hops.call
      | effect hphase hobj =>
        rw [ObjEvent.task, hphase] at hops
        simpa [ObjEvent.task] using hops.effect
      | reply hphase =>
        rw [ObjEvent.task, hphase] at hops
        simpa [ObjEvent.task] using hops.reply
    · rw [if_neg he]
      -- another task's event leaves the phase alone
      have hphase : q'.phase t = q.phase t := by
        cases hstep <;> exact Function.update_of_ne (Ne.symm he) _ _
      rwa [hphase]

theorem linearization_of_atomicObject (hrun : (atomicObject obj).Run P es q) :
    Linearization obj (es.filterMap ObjEvent.seen) es q.obj :=
  ⟨rfl, atomicObject_effects hrun, fun t => ⟨_, atomicObject_ops hrun t⟩⟩

/-- **Linearizability by simulation**: a system that the atomic object simulates is
linearizable, in all its runs. -/
theorem linearization_of_simulation {τ α : Type*} {M : TransitionSystem τ α}
    {P : τ → α → Prop} {history : α → Option (HistoryEvent ι κ ρ)}
    {R : τ → AtomicState σ ι κ ρ → Prop}
    (hsim : ForwardSimulation M P (atomicObject obj) history ObjEvent.seen R)
    {as : List α} {s : τ} (hrun : M.Run P as s) :
    ∃ es q, Linearization obj (as.filterMap history) es q.obj ∧ R s q := by
  obtain ⟨es, q, hatomic, hseen, hR⟩ := hsim.run hrun
  have hlin := linearization_of_atomicObject hatomic
  rw [hseen] at hlin
  exact ⟨es, q, hlin, hR⟩

/-! ## Machines

The operations of a machine are as far as the places say at which its tasks are. -/

section

variable {π : Type*} {phase : π → OpPhase κ ρ} {pc : ι → π} {p : π} {t : ι} {x y : σ} {c : κ}
  {r : ρ}

omit [DecidableEq ι] in
def AtomicState.ofPlaces (phase : π → OpPhase κ ρ) (x : σ) (pc : ι → π) : AtomicState σ ι κ ρ :=
  ⟨x, phase ∘ pc⟩

theorem AtomicState.ofPlaces_update (x : σ) (pc : ι → π) (t : ι) (p : π) :
    ofPlaces phase x (Function.update pc t p) =
      ⟨x, Function.update (phase ∘ pc) t (phase p)⟩ := by
  rw [ofPlaces, Function.comp_update]

/-- A statement between two places of one phase does not show. -/
theorem AtomicState.ofPlaces_update_of_eq (h : phase p = phase (pc t)) :
    ofPlaces phase x (Function.update pc t p) = ofPlaces phase x pc := by
  rw [ofPlaces_update, h]
  exact congrArg _ (Function.update_eq_self t (phase ∘ pc))

theorem AtomicStep.callPlace (hfrom : phase (pc t) = .idle) (hto : phase p = .called c) :
    AtomicStep obj (.ofPlaces phase x pc) (.call t c)
      (.ofPlaces phase x (Function.update pc t p)) := by
  rw [AtomicState.ofPlaces_update, hto]
  exact .call hfrom

theorem AtomicStep.effectPlace (hfrom : phase (pc t) = .called c) (hstep : obj.step x ⟨t, c, r⟩ y)
    (hto : phase p = .done r) :
    AtomicStep obj (.ofPlaces phase x pc) (.effect t c r)
      (.ofPlaces phase y (Function.update pc t p)) := by
  rw [AtomicState.ofPlaces_update, hto]
  exact .effect hfrom hstep

theorem AtomicStep.replyPlace (hfrom : phase (pc t) = .done r) (hto : phase p = .idle) :
    AtomicStep obj (.ofPlaces phase x pc) (.reply t r)
      (.ofPlaces phase x (Function.update pc t p)) := by
  rw [AtomicState.ofPlaces_update, hto]
  exact .reply hfrom

end

/-! ## One task -/

/-- The calls of one task, in their order. -/
def callsOf (t : ι) (history : List (HistoryEvent ι κ ρ)) : List κ :=
  (history.filter fun e => e.task = t).filterMap HistoryEvent.called

/-- The replies to one task, in their order. -/
def repliesOf (t : ι) (history : List (HistoryEvent ι κ ρ)) : List ρ :=
  (history.filter fun e => e.task = t).filterMap HistoryEvent.replied

/-- The operations of one task that it has been replied to. -/
def completedBy (t : ι) (history : List (HistoryEvent ι κ ρ)) : List (κ × ρ) :=
  (callsOf t history).zip (repliesOf t history)

/-- The effects of one task's operations. -/
def effectsOf (t : ι) (fs : List (Effect ι κ ρ)) : List (Effect ι κ ρ) :=
  fs.filter fun f => f.task = t

theorem effectsOf_snoc (t : ι) (fs : List (Effect ι κ ρ)) (f : Effect ι κ ρ) :
    effectsOf t (fs ++ [f]) = if f.task = t then effectsOf t fs ++ [f] else effectsOf t fs := by
  by_cases hf : f.task = t <;> simp [effectsOf, hf]

theorem filter_seen (t : ι) (es : List (ObjEvent ι κ ρ)) :
    ((es.filterMap ObjEvent.seen).filter fun e => e.task = t) =
      (eventsOf t es).filterMap ObjEvent.seen := by
  rw [eventsOf, List.filter_filterMap, List.filterMap_filter]
  congr 1
  funext e
  by_cases he : e.task = t <;> cases e <;>
    simp_all [ObjEvent.seen, ObjEvent.task, HistoryEvent.task]

theorem effectsOf_takesEffect (t : ι) (es : List (ObjEvent ι κ ρ)) :
    effectsOf t (es.filterMap ObjEvent.takesEffect) =
      (eventsOf t es).filterMap ObjEvent.takesEffect := by
  rw [effectsOf, eventsOf, List.filter_filterMap, List.filterMap_filter]
  congr 1
  funext e
  by_cases he : e.task = t <;> cases e <;> simp_all [ObjEvent.takesEffect, ObjEvent.task]

omit [DecidableEq ι] in
/-- What has been called has taken effect, but for the pending call. -/
theorem Ops.calls_eq {p : OpPhase κ ρ} (h : Ops es p) :
    (es.filterMap ObjEvent.seen).filterMap HistoryEvent.called =
      (es.filterMap ObjEvent.takesEffect).map Effect.call ++ p.pending := by
  induction h with
  | nil => rfl
  | call h ih | effect h ih | reply h ih =>
    simpa [List.filterMap_cons, ObjEvent.seen, ObjEvent.takesEffect, HistoryEvent.called,
      OpPhase.pending] using ih

omit [DecidableEq ι] in
/-- What has taken effect has been replied to, but for the reply that is owed. -/
theorem Ops.replies_eq {p : OpPhase κ ρ} (h : Ops es p) :
    (es.filterMap ObjEvent.takesEffect).map Effect.reply =
      (es.filterMap ObjEvent.seen).filterMap HistoryEvent.replied ++ p.owed := by
  induction h with
  | nil => rfl
  | call h ih | effect h ih | reply h ih =>
    simpa [List.filterMap_cons, ObjEvent.seen, ObjEvent.takesEffect, HistoryEvent.replied,
      OpPhase.owed] using ih

/-- **One task's operations**: they take effect in the order in which it calls them, each
after its call and before its reply. -/
theorem Linearization.of_task {history : List (HistoryEvent ι κ ρ)} {x : σ}
    (hlin : Linearization obj history es x) (t : ι) :
    ∃ p : OpPhase κ ρ,
      callsOf t history =
        (effectsOf t (es.filterMap ObjEvent.takesEffect)).map Effect.call ++ p.pending ∧
      (effectsOf t (es.filterMap ObjEvent.takesEffect)).map Effect.reply =
        repliesOf t history ++ p.owed := by
  obtain ⟨p, hops⟩ := hlin.ops t
  refine ⟨p, ?_, ?_⟩
  · rw [callsOf, ← hlin.seen, filter_seen, effectsOf_takesEffect, hops.calls_eq]
  · rw [repliesOf, ← hlin.seen, filter_seen, effectsOf_takesEffect, hops.replies_eq]

theorem zip_append_prefix {cs pending : List κ} {rs owed : List ρ} (hle : rs.length ≤ cs.length) :
    (cs ++ pending).zip rs <+: cs.zip (rs ++ owed) := by
  induction rs generalizing cs with
  | nil => simp
  | cons r rs ih =>
    cases cs with
    | nil => cases hle
    | cons c cs => simpa using ih (Nat.le_of_succ_le_succ hle)

/-- The operations that a task has been replied to have taken effect, in this order. -/
theorem Linearization.completed_prefix {history : List (HistoryEvent ι κ ρ)} {x : σ}
    (hlin : Linearization obj history es x) (t : ι) :
    completedBy t history <+:
      (effectsOf t (es.filterMap ObjEvent.takesEffect)).map Effect.op := by
  obtain ⟨p, hcalls, hreplies⟩ := hlin.of_task t
  generalize effectsOf t (es.filterMap ObjEvent.takesEffect) = own at hcalls hreplies
  have hle : (repliesOf t history).length ≤ (own.map Effect.call).length := by
    rw [List.length_map, ← List.length_map Effect.reply, hreplies, List.length_append]
    exact Nat.le_add_right _ _
  have hzip : own.map Effect.op = (own.map Effect.call).zip (own.map Effect.reply) := by
    rw [List.zip_map']
    rfl
  rw [completedBy, hzip, hcalls, hreplies]
  exact zip_append_prefix hle

/-! ## Objects that answer calls by a function -/

/-- The object that starts in a state of `init` and answers calls by `f`. -/
def answering {ε : Type*} (f : σ → κ → Except ε (σ × ρ)) (init : σ → Prop) :
    TransitionSystem σ (Effect ι κ ρ) where
  init := init
  step x e y := f x e.call = .ok (y, e.reply)

omit [DecidableEq ι] in
/-- Its runs are sequences of calls. -/
theorem runCalls_of_run {σ ρ : Type u} {ε : Type*} {f : σ → κ → Except ε (σ × ρ)}
    {init : σ → Prop} {P : σ → Effect ι κ ρ → Prop} {fs : List (Effect ι κ ρ)} {x : σ}
    (hrun : (answering f init).Run P fs x) :
    ∃ x₀, init x₀ ∧
      runCalls f x₀ (fs.map Effect.call) = .ok (x, fs.map Effect.reply) := by
  induction hrun with
  | start hinit => exact ⟨_, hinit, rfl⟩
  | step _ _ hstep ih =>
    obtain ⟨x₀, hx₀, hcalls⟩ := ih
    refine ⟨x₀, hx₀, ?_⟩
    rw [List.map_append, List.map_append]
    exact runCalls_snoc hcalls hstep

end Poski.Lib
