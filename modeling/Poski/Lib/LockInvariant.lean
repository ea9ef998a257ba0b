import Mathlib.Logic.Function.Basic
import Poski.Lib.RecLock

/-!
# Data Behind a Recursive Lock

Tasks share some data and touch it only while they own a recursive lock. What is known about
the data then depends on where the owner stands, and is known to be `rest` while nobody owns
the lock. A task's place tells how often it has locked; places of depth zero are outside.

The rules below are for a step of one task: it locks, unlocks, works on the data, or goes on
outside. Where the others stand does not matter to any of them.

- `Guarding.Inv` : the lock, the data and the places fit together
- `Inv.lock`, `Inv.unlock`, `Inv.work`, `Inv.outside` : the steps that keep it
- `Inv.eq_of_inside` : one task at a time is inside
- `Inv.lock_or_inside` : who has to wait, waits for a task that is inside
-/

namespace Poski.Lib

universe u v w

/-- What the places `π` of the tasks `ι` say about the data `δ`. -/
structure Guarding (ι : Type u) (π : Type v) (δ : Type w) where
  /-- How often a task has locked that stands here. -/
  depth : π → ℕ
  /-- What a task that stands here, inside, can rely on. -/
  holds : ι → π → δ → Prop
  /-- What holds while the lock is free. -/
  rest : δ → Prop

namespace Guarding

variable {ι : Type u} {π : Type v} {δ : Type w} [DecidableEq ι] {G : Guarding ι π δ}
  {l l' : RecLock ι} {d d' : δ} {pc : ι → π} {t u : ι} {p : π} {limit : ℕ}

structure Inv (G : Guarding ι π δ) (l : RecLock ι) (d : δ) (pc : ι → π) : Prop where
  depth_eq : ∀ t, G.depth (pc t) = if l.owner = some t then l.count else 0
  holds : ∀ t, 0 < G.depth (pc t) → G.holds t (pc t) d
  rest : l = .free → G.rest d

namespace Inv

/-- It holds at the start, with everybody outside. -/
theorem of_free (hpc : ∀ t, G.depth (pc t) = 0) (hrest : G.rest d) : G.Inv .free d pc where
  depth_eq := hpc
  holds t hpos := by
    rw [hpc] at hpos
    exact absurd hpos (Nat.lt_irrefl 0)
  rest _ := hrest

/-- Who is inside owns the lock. -/
theorem owner_of_inside (h : G.Inv l d pc) (hin : 0 < G.depth (pc t)) : l.owner = some t := by
  by_contra howner
  rw [h.depth_eq, if_neg howner] at hin
  exact Nat.lt_irrefl 0 hin

/-- One task at a time is inside. -/
theorem eq_of_inside (h : G.Inv l d pc) (ht : 0 < G.depth (pc t)) (hu : 0 < G.depth (pc u)) :
    t = u :=
  Option.some_inj.mp ((h.owner_of_inside ht).symm.trans (h.owner_of_inside hu))

/-- The owner is inside. -/
theorem inside_of_owner (h : G.Inv l d pc) (howner : l.owner = some t) :
    0 < G.depth (pc t) := by
  rw [h.depth_eq, if_pos howner]
  cases l with
  | free => cases howner
  | held _ n => exact n.succ_pos

/-- What a task relies on where it stands. -/
theorem holds_of_pc (h : G.Inv l d pc) (hpc : pc t = p) (hin : 0 < G.depth p) :
    0 < G.depth (pc t) ∧ G.holds t p d := by
  subst hpc
  exact ⟨hin, h.holds t hin⟩

/-- The lock is free if its owner is outside. -/
theorem free_of_depth_zero (h : G.Inv l d pc) (hl : l = .free ∨ l.owner = some t)
    (hzero : G.depth (pc t) = 0) : l = .free := by
  refine hl.resolve_right fun howner => ?_
  have hpos := h.inside_of_owner howner
  omega

/-- A task whose depth is not at the limit locks, or another task is inside. -/
theorem lock_or_inside (h : G.Inv l d pc) (hlimit : G.depth (pc t) < limit) :
    (∃ l', l.lock limit t = some l') ∨ ∃ u, u ≠ t ∧ l.owner = some u := by
  cases l with
  | free =>
    refine .inl ⟨_, if_pos ⟨.inl rfl, ?_⟩⟩
    rw [RecLock.count_free]
    omega
  | held u n =>
    by_cases hu : u = t
    · subst hu
      rw [h.depth_eq, RecLock.owner_held, if_pos rfl] at hlimit
      exact .inl ⟨_, if_pos ⟨.inr rfl, hlimit⟩⟩
    · exact .inr ⟨u, hu, rfl⟩

/-- Who is inside can unlock. -/
theorem unlock_of_inside (h : G.Inv l d pc) (hin : 0 < G.depth (pc t)) :
    l.unlock t = some l.release :=
  if_pos (h.owner_of_inside hin)

/-- The places after a step of `t` fit the lock, if `t`'s own does and nobody else has come to
own it or ceased to. -/
theorem depth_eq_update (h : G.Inv l d pc)
    (hself : G.depth p = if l'.owner = some t then l'.count else 0)
    (hothers : ∀ u, u ≠ t → (if l'.owner = some u then l'.count else 0)
      = if l.owner = some u then l.count else 0) (u : ι) :
    G.depth (Function.update pc t p u) = if l'.owner = some u then l'.count else 0 := by
  by_cases hu : u = t
  · subst hu
    rw [Function.update_self, hself]
  · rw [Function.update_of_ne hu, h.depth_eq, hothers u hu]

/-- What the others rely on is not touched by a task that is, or comes to be, the only one
inside. -/
theorem holds_update (halone : ∀ u, u ≠ t → ¬0 < G.depth (pc u))
    (hself : 0 < G.depth p → G.holds t p d') (u : ι)
    (hin : 0 < G.depth (Function.update pc t p u)) :
    G.holds u (Function.update pc t p u) d' := by
  by_cases hu : u = t
  · subst hu
    rw [Function.update_self] at hin ⊢
    exact hself hin
  · rw [Function.update_of_ne hu] at hin
    exact absurd hin (halone u hu)

/-- Nobody else is inside. -/
theorem alone (h : G.Inv l d pc) (hl : l = .free ∨ l.owner = some t) (hu : u ≠ t) :
    ¬0 < G.depth (pc u) := by
  intro hin
  have howner := h.owner_of_inside hin
  rcases hl with rfl | hl
  · cases howner
  · exact hu (Option.some_inj.mp (howner.symm.trans hl))

/-- **Locking.** The first time, the task learns that the data is at rest. -/
theorem lock (h : G.Inv l d pc) (hlock : l.lock limit t = some l')
    (hdepth : G.depth p = G.depth (pc t) + 1)
    (hfirst : G.depth (pc t) = 0 → G.rest d → G.holds t p d)
    (hagain : 0 < G.depth (pc t) → G.holds t (pc t) d → G.holds t p d) :
    G.Inv l' d (Function.update pc t p) := by
  obtain ⟨hl, _, rfl⟩ := RecLock.lock_eq_some.mp hlock
  have hcount : l.count = G.depth (pc t) := by
    rw [h.depth_eq]
    rcases hl with rfl | howner
    · simp
    · rw [if_pos howner]
  refine ⟨h.depth_eq_update ?_ fun u hu => ?_, holds_update (fun _ => h.alone hl) fun _ => ?_, ?_⟩
  · rw [RecLock.owner_held, if_pos rfl, RecLock.count_held, hcount, hdepth]
  -- nobody else has been inside, and nobody else is now
  · have hout := h.alone hl hu
    rw [RecLock.owner_held, if_neg fun heq => hu (Option.some_inj.mp heq).symm, ← h.depth_eq]
    omega
  -- from outside, the task finds the data at rest; from inside, as it left it
  · cases Nat.eq_zero_or_pos (G.depth (pc t)) with
    | inl hzero => exact hfirst hzero (h.rest (h.free_of_depth_zero hl hzero))
    | inr hin => exact hagain hin (h.holds t hin)
  · intro hfree
    cases hfree

/-- **Unlocking.** The last time, the task leaves the data at rest. -/
theorem unlock (h : G.Inv l d pc) (hunlock : l.unlock t = some l')
    (hdepth : G.depth (pc t) = G.depth p + 1)
    (hlast : G.depth p = 0 → G.holds t (pc t) d → G.rest d)
    (hmore : 0 < G.depth p → G.holds t (pc t) d → G.holds t p d) :
    G.Inv l' d (Function.update pc t p) := by
  obtain ⟨n, rfl, hcount, hl'⟩ := RecLock.unlock_eq_some.mp hunlock
  have hin : 0 < G.depth (pc t) := by omega
  -- `n` is how often the task has locked without having unlocked since
  have hn : G.depth p = n := by
    have := h.depth_eq t
    rw [RecLock.owner_held, if_pos rfl, RecLock.count_held] at this
    omega
  refine ⟨h.depth_eq_update ?_ fun u hu => ?_, holds_update (fun _ => h.alone (.inr rfl))
    fun hp => hmore hp (h.holds t hin), fun hfree => hlast ?_ (h.holds t hin)⟩
  · rcases hl' with rfl | howner
    · rw [hn, ← hcount]
      rfl
    · rw [if_pos howner, hcount, hn]
  · have hne : some t ≠ some u := fun heq => hu (Option.some_inj.mp heq).symm
    rw [RecLock.owner_held, if_neg hne]
    rcases hl' with rfl | howner
    · rfl
    · rw [howner, if_neg hne]
  · rw [hn, ← hcount, hfree]
    rfl

/-- **Working on the data**, inside. -/
theorem work (h : G.Inv l d pc) (hin : 0 < G.depth (pc t)) (hdepth : G.depth p = G.depth (pc t))
    (hholds : G.holds t (pc t) d → G.holds t p d') : G.Inv l d' (Function.update pc t p) := by
  have howner := h.owner_of_inside hin
  refine ⟨h.depth_eq_update ?_ fun _ _ => rfl, holds_update (fun _ => h.alone (.inr howner))
    fun _ => hholds (h.holds t hin), fun hfree => ?_⟩
  · rw [hdepth, h.depth_eq]
  · rw [hfree] at howner
    cases howner

/-- **Going on outside.** -/
theorem outside (h : G.Inv l d pc) (hout : G.depth (pc t) = 0) (hp : G.depth p = 0) :
    G.Inv l d (Function.update pc t p) := by
  refine ⟨h.depth_eq_update ?_ fun _ _ => rfl, fun u hin => ?_, h.rest⟩
  · exact (hp.trans hout.symm).trans (h.depth_eq t)
  · by_cases hu : u = t
    · subst hu
      rw [Function.update_self, hp] at hin
      exact absurd hin (Nat.lt_irrefl 0)
    · rw [Function.update_of_ne hu] at hin ⊢
      exact h.holds u hin

end Inv

end Guarding

end Poski.Lib
