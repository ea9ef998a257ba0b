import Poski.Osal.OsQueue

/-!
# What a New Queue Has to Store

A port's queue, given by its `pos_queue_put` and `pos_queue_get`, stores `maxMsgs` messages
of `msgSize` bytes if that many can be put into it, one after the other, and are got back
whole and in order.
-/

namespace Poski

variable {Q : Type} (put : Q → List UInt8 → Except Halt (Q × PosError × Option Signal))
  (get : Q → List UInt8 → UInt32 → Except Halt (Q × List UInt8 × PosError))

/-- Put the messages one after the other; `none` unless each call returns `POS_OK`. -/
def putAll : Q → List (List UInt8) → Option Q
  | q, [] => some q
  | q, item :: items =>
    match put q item with
    | .ok (q', .ok, _) => putAll q' items
    | _ => none

/-- Get one message into each of the buffers; `none` unless each call returns `POS_OK`. -/
def getAll (tmo : UInt32) : Q → List (List UInt8) → Option (List (List UInt8))
  | _, [] => some []
  | q, out :: outs =>
    match get q out tmo with
    | .ok (q', item, .ok) => (getAll tmo q' outs).map (item :: ·)
    | _ => none

/-- The queue stores `maxMsgs` messages of `msgSize` bytes each. -/
def StoresAll (q : Q) (msgSize maxMsgs : ℕ) : Prop :=
  ∀ (items outs : List (List UInt8)) (tmo : UInt32),
    items.length = maxMsgs → (∀ item ∈ items, item.length = msgSize) →
    outs.length = maxMsgs → (∀ out ∈ outs, out.length = msgSize) →
    ∃ q', putAll put q items = some q' ∧ getAll get tmo q' outs = some items

variable {put get}

theorem putAll_cons_eq_some {q q'' : Q} {item : List UInt8} {items : List (List UInt8)} :
    putAll put q (item :: items) = some q'' ↔
      ∃ q' signal, put q item = .ok (q', .ok, signal) ∧ putAll put q' items = some q'' := by
  rw [putAll]
  split
  · rename_i q' signal hput
    constructor
    · intro h
      exact ⟨q', signal, hput, h⟩
    · rintro ⟨q₁, signal₁, hput₁, h⟩
      cases hput.symm.trans hput₁
      exact h
  · rename_i hput
    constructor
    · intro h
      cases h
    · rintro ⟨q₁, signal₁, hput₁, -⟩
      exact absurd hput₁ (hput q₁ signal₁)

theorem getAll_cons_eq_some {tmo : UInt32} {q : Q} {out : List UInt8}
    {outs items : List (List UInt8)} :
    getAll get tmo q (out :: outs) = some items ↔
      ∃ q' item rest, get q out tmo = .ok (q', item, .ok) ∧
        getAll get tmo q' outs = some rest ∧ items = item :: rest := by
  rw [getAll]
  split
  · rename_i q' item hget
    constructor
    · intro h
      obtain ⟨rest, hrest, heq⟩ := Option.map_eq_some_iff.mp h
      exact ⟨q', item, rest, hget, hrest, heq.symm⟩
    · rintro ⟨q₁, item₁, rest, hget₁, hrest, rfl⟩
      cases hget.symm.trans hget₁
      rw [hrest]
      rfl
  · rename_i hget
    constructor
    · intro h
      cases h
    · rintro ⟨q₁, item₁, rest, hget₁, -⟩
      exact absurd hget₁ (hget q₁ item₁)

end Poski
