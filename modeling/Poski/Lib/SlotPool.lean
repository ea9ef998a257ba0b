import Mathlib.Data.Set.Card

/-!
# Pools of Slots

Parties hold slots of a pool, one each at most, and the pool marks the slots that are held.
The parties' own notes and the pool's marks are kept apart, so they can come to disagree.

- `SlotsOwned` : marks and notes agree, and no slot is held by two parties
- `SlotsOwned.acquire` : a party that holds none is given an unmarked slot
- `SlotsOwned.release_iff` : a slot is unmarked without harm exactly if nobody else holds it
- `SlotsOwned.ncard_holders` : the parties that hold a slot are as many as the marks
- `SlotsHeld` : what is left of that in a pool that loses slots
-/

namespace Poski.Lib

universe u v

variable {τ : Type u} {κ : Type v}

/-- `used` marks the slots that `slot` says are held, and nobody shares a slot. -/
structure SlotsOwned (used : κ → Bool) (slot : τ → Option κ) : Prop where
  distinct : ∀ t u i, slot t = some i → slot u = some i → t = u
  used_iff : ∀ i, used i = true ↔ ∃ t, slot t = some i

namespace SlotsOwned

variable {used : κ → Bool} {slot : τ → Option κ} {t : τ} {i : κ}

theorem empty (hunused : ∀ i, used i = false) (hnone : ∀ t, slot t = none) :
    SlotsOwned used slot where
  distinct := by simp [hnone]
  used_iff := by simp [hunused, hnone]

/-- An unmarked slot is held by nobody. -/
theorem not_held (h : SlotsOwned used slot) (hunused : used i = false) (u : τ) :
    slot u ≠ some i := by
  intro hslot
  have hused := (h.used_iff i).mpr ⟨u, hslot⟩
  simp [hunused] at hused

/-- **Census**: each marked slot has one holder. -/
theorem ncard_holders (h : SlotsOwned used slot) :
    {t | slot t ≠ none}.ncard = {i | used i = true}.ncard := by
  have hinj : Set.InjOn slot {t | slot t ≠ none} := by
    intro t ht u _ hslot
    obtain ⟨i, hi⟩ := Option.ne_none_iff_exists'.mp ht
    exact h.distinct t u i hi (hslot.symm.trans hi)
  have himage : slot '' {t | slot t ≠ none} = some '' {i | used i = true} := by
    ext o
    constructor
    · rintro ⟨t, ht, rfl⟩
      obtain ⟨i, hi⟩ := Option.ne_none_iff_exists'.mp ht
      exact ⟨i, (h.used_iff i).mpr ⟨t, hi⟩, hi.symm⟩
    · rintro ⟨i, hused, rfl⟩
      obtain ⟨t, ht⟩ := (h.used_iff i).mp hused
      exact ⟨t, by simp [ht], ht⟩
  rw [← hinj.ncard_image, himage, Set.ncard_image_of_injective _ (Option.some_injective _)]

variable [DecidableEq τ]

/-- Who holds a slot after a party's note has changed. -/
theorem update_eq_some {o : Option κ} {u : τ} {j : κ} :
    Function.update slot t o u = some j ↔ u = t ∧ o = some j ∨ u ≠ t ∧ slot u = some j := by
  rcases eq_or_ne u t with rfl | hne
  · simp
  · simp [hne]

variable [DecidableEq κ]

theorem acquire (h : SlotsOwned used slot) (hunused : used i = false) (hnone : slot t = none) :
    SlotsOwned (Function.update used i true) (Function.update slot t (some i)) where
  distinct := by
    simp only [update_eq_some, Option.some_inj]
    rintro v w j (⟨rfl, rfl⟩ | ⟨_, hv⟩) (⟨rfl, hij⟩ | ⟨_, hw⟩)
    · rfl
    · exact absurd hw (h.not_held hunused w)
    · exact absurd (hij ▸ hv) (h.not_held hunused v)
    · exact h.distinct v w j hv hw
  used_iff := by
    intro j
    rw [Function.exists_update_iff slot fun _ o => o = some j]
    rcases eq_or_ne j i with rfl | hji
    · simp
    · rw [Function.update_of_ne hji, h.used_iff]
      constructor
      · rintro ⟨u, hu⟩
        refine .inr ⟨u, ?_, hu⟩
        rintro rfl
        simp [hnone] at hu
      · rintro (hij | ⟨u, _, hu⟩)
        · exact absurd (Option.some_inj.mp hij).symm hji
        · exact ⟨u, hu⟩

/-- Party `t`, which holds slot `i` or none, gives up what it holds. -/
theorem release_iff (h : SlotsOwned used slot) (hslot : ∀ j, slot t = some j → j = i) :
    SlotsOwned (Function.update used i false) (Function.update slot t none) ↔
      ∀ u, u ≠ t → slot u ≠ some i := by
  constructor
  · intro h' u hut hu
    -- `u` still holds the slot, which is not marked any more
    exact h'.not_held (Function.update_self i false used) u (by rwa [Function.update_of_ne hut])
  · intro hothers
    refine ⟨?_, fun j => ?_⟩
    · simp only [update_eq_some, reduceCtorEq, and_false, false_or]
      rintro v w j ⟨_, hv⟩ ⟨_, hw⟩
      exact h.distinct v w j hv hw
    · simp only [update_eq_some, reduceCtorEq, and_false, false_or]
      rcases eq_or_ne j i with rfl | hji
      · simpa using hothers
      · rw [Function.update_of_ne hji, h.used_iff]
        constructor
        · rintro ⟨u, hu⟩
          refine ⟨u, ?_, hu⟩
          rintro rfl
          exact hji (hslot j hu)
        · rintro ⟨u, _, hu⟩
          exact ⟨u, hu⟩

end SlotsOwned

/-- Held slots are marked, and nobody shares a slot. A mark may have lost its holder. -/
structure SlotsHeld (used : κ → Bool) (slot : τ → Option κ) : Prop where
  distinct : ∀ t u i, slot t = some i → slot u = some i → t = u
  marked : ∀ t i, slot t = some i → used i = true

namespace SlotsHeld

variable {used : κ → Bool} {slot : τ → Option κ} {t : τ} {i : κ}

theorem empty (hnone : ∀ t, slot t = none) : SlotsHeld used slot where
  distinct := by simp [hnone]
  marked := by simp [hnone]

/-- An unmarked slot is held by nobody. -/
theorem not_held (h : SlotsHeld used slot) (hunused : used i = false) (u : τ) :
    slot u ≠ some i := by
  intro hslot
  have hused := h.marked u i hslot
  simp [hunused] at hused

variable [DecidableEq τ] [DecidableEq κ]

/-- A party is given an unmarked slot. If it holds one already, that one is lost. -/
theorem acquire (h : SlotsHeld used slot) (hunused : used i = false) :
    SlotsHeld (Function.update used i true) (Function.update slot t (some i)) where
  distinct := by
    simp only [SlotsOwned.update_eq_some, Option.some_inj]
    rintro v w j (⟨rfl, rfl⟩ | ⟨_, hv⟩) (⟨rfl, hij⟩ | ⟨_, hw⟩)
    · rfl
    · exact absurd hw (h.not_held hunused w)
    · exact absurd (hij ▸ hv) (h.not_held hunused v)
    · exact h.distinct v w j hv hw
  marked := by
    simp only [SlotsOwned.update_eq_some, Option.some_inj]
    rintro v j (⟨rfl, rfl⟩ | ⟨_, hv⟩)
    · exact Function.update_self _ _ _
    · rcases eq_or_ne j i with rfl | hji
      · exact Function.update_self _ _ _
      · rw [Function.update_of_ne hji]
        exact h.marked v j hv

/-- A party gives up the slot that it holds. -/
theorem release (h : SlotsHeld used slot) (hslot : slot t = some i) :
    SlotsHeld (Function.update used i false) (Function.update slot t none) where
  distinct := by
    simp only [SlotsOwned.update_eq_some, reduceCtorEq, and_false, false_or]
    rintro v w j ⟨_, hv⟩ ⟨_, hw⟩
    exact h.distinct v w j hv hw
  marked := by
    simp only [SlotsOwned.update_eq_some, reduceCtorEq, and_false, false_or]
    rintro v j ⟨hvt, hv⟩
    have hji : j ≠ i := by
      rintro rfl
      exact hvt (h.distinct v t j hv hslot)
    rw [Function.update_of_ne hji]
    exact h.marked v j hv

end SlotsHeld

end Poski.Lib
