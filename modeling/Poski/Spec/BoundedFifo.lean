import Poski.Lib.TransitionSystem

/-!
# Bounded FIFO Queues

What a message queue is for: messages leave in the order in which they entered, each
once and unchanged, and never more than `cap` are stored. The ports' queues are compared
with this system.

- `BoundedFifo` : a list of stored messages that carries its bound
- `fifo` : the transition system of pushes and pops
- `fifo_history` : what was pushed is what was popped, followed by what is stored
-/

namespace Poski.Spec

open Lib

universe u

/-- A queue of at most `cap` messages, the oldest first. -/
structure BoundedFifo (α : Type u) (cap : ℕ) where
  items : List α
  length_le : items.length ≤ cap

/-- A message enters or leaves. -/
inductive FifoEvent (α : Type u) where
  | push (a : α)
  | pop (a : α)

namespace FifoEvent

variable {α : Type u}

/-- The message that an event brings in. -/
def pushed : FifoEvent α → Option α
  | push a => some a
  | pop _ => none

/-- The message that an event takes out. -/
def popped : FifoEvent α → Option α
  | push _ => none
  | pop a => some a

end FifoEvent

variable {α : Type u} {cap : ℕ}

namespace BoundedFifo

def nil : BoundedFifo α cap := ⟨[], Nat.zero_le _⟩

/-- Append a message while there is room. -/
def push (q : BoundedFifo α cap) (a : α) (h : q.items.length < cap) : BoundedFifo α cap where
  items := q.items ++ [a]
  length_le := by
    rw [List.length_append]
    exact h

/-- Drop the oldest message. -/
def pop (q : BoundedFifo α cap) : BoundedFifo α cap where
  items := q.items.tail
  length_le := by
    rw [List.length_tail]
    exact Nat.le_trans (Nat.sub_le _ _) q.length_le

@[simp] theorem push_items (q : BoundedFifo α cap) (a : α) (h : q.items.length < cap) :
    (q.push a h).items = q.items ++ [a] := rfl

@[simp] theorem pop_items (q : BoundedFifo α cap) : q.pop.items = q.items.tail := rfl

end BoundedFifo

/-- Pushes append, pops take the head. -/
def fifo (α : Type u) (cap : ℕ) : TransitionSystem (BoundedFifo α cap) (FifoEvent α) where
  init q := q = .nil
  step q e q' :=
    match e with
    | .push a => q'.items = q.items ++ [a]
    | .pop a => q.items = a :: q'.items

/-- **FIFO law**: in every run the pushed messages, in order, are the popped messages,
in order, followed by the stored ones. -/
theorem fifo_history {P : BoundedFifo α cap → FifoEvent α → Prop}
    {es : List (FifoEvent α)} {q : BoundedFifo α cap} (hrun : (fifo α cap).Run P es q) :
    es.filterMap FifoEvent.pushed = es.filterMap FifoEvent.popped ++ q.items := by
  refine hrun.invariant
    (I := fun es q => es.filterMap FifoEvent.pushed = es.filterMap FifoEvent.popped ++ q.items)
    ?_ ?_
  · rintro q rfl
    rfl
  · intro es q e q' ih _ hstep
    cases e with
    | push a =>
      have hitems : q'.items = q.items ++ [a] := hstep
      simp [FifoEvent.pushed, FifoEvent.popped, ih, hitems]
    | pop a =>
      have hitems : q.items = a :: q'.items := hstep
      simp [FifoEvent.pushed, FifoEvent.popped, ih, hitems]

end Poski.Spec
