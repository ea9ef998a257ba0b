import Poski.Lib.ObjectRefinement
import Poski.Ring.OsRing
import Poski.Spec.BoundedFifo

/-!
# OsRing Refines a Bounded FIFO

The methods of `OsRing`, taken as the calls of one object, are compared with the same
calls on a list of at most `itemCount` messages. The user of the class is bound to two
rules, which are those of its assertions: no `push_back` on a full ring and no
`pop_front` on an empty one.

## Main results

- `call_refines` : one call, from a ring that stores what the list holds
- `osRing_refines_boundedFifo` : sequences of calls of any length
-/

namespace Poski.OsRing

open Lib Spec

/-! ## Calls and replies -/

/-- The methods that a user calls. -/
inductive Call where
  | pushBack (item : List UInt8)
  | popFront
  | front
  | size
  | empty
  | full
  deriving DecidableEq, Repr

/-- What a method lets its caller see. For `front` these are the bytes behind the
returned pointer. -/
inductive Reply where
  | done
  | bytes (item : Option (List UInt8))
  | count (n : ℕ)
  | flag (value : Bool)
  deriving DecidableEq, Repr

/-- The ring as an object. -/
def call (b : Build) (r : OsRing) : Call → Except Halt (OsRing × Reply)
  | .pushBack item => do return (← r.pushBack b item, .done)
  | .popFront => do return (← r.popFront b, .done)
  | .front => .ok (r, .bytes r.frontBytes)
  | .size => .ok (r, .count r.size.toNat)
  | .empty => .ok (r, .flag r.empty)
  | .full => .ok (r, .flag r.full)

/-- The rules of use: a message of `itemSize` bytes is pushed only when `full()` is
false, and a message is popped only when `empty()` is false. -/
def Allowed (r : OsRing) : Call → Prop
  | .pushBack item => r.full = false ∧ item.length = r.itemSize.toNat
  | .popFront => r.empty = false
  | _ => True

instance (r : OsRing) : ∀ c, Decidable (Allowed r c)
  | .pushBack item =>
    inferInstanceAs (Decidable (r.full = false ∧ item.length = r.itemSize.toNat))
  | .popFront => inferInstanceAs (Decidable (r.empty = false))
  | .front | .size | .empty | .full => inferInstanceAs (Decidable True)

/-- The same calls on a bounded list; a push beyond the bound or a pop from the empty
list has no answer. -/
def fifoCall {cap : ℕ} (q : BoundedFifo (List UInt8) cap) :
    Call → Except Unit (BoundedFifo (List UInt8) cap × Reply)
  | .pushBack item =>
    if h : q.items.length < cap then .ok (q.push item h, .done) else .error ()
  | .popFront =>
    if q.items = [] then .error () else .ok (q.pop, .done)
  | .front => .ok (q, .bytes q.items.head?)
  | .size => .ok (q, .count q.items.length)
  | .empty => .ok (q, .flag q.items.isEmpty)
  | .full => .ok (q, .flag (q.items.length == cap))

/-! ## The simulation -/

/-- A valid ring with the count and the contents of the list. -/
structure Represents {cap : ℕ} (r : OsRing) (q : BoundedFifo (List UInt8) cap) : Prop
    extends Valid r where
  count_eq : r.itemCount.toNat = cap
  contents_eq : r.contents = q.items

variable {cap : ℕ} {r : OsRing} {q : BoundedFifo (List UInt8) cap}

theorem Represents.size_eq (h : Represents r q) : r.size.toNat = q.items.length := by
  rw [← length_contents, h.contents_eq]

theorem Represents.empty_eq (h : Represents r q) : r.empty = q.items.isEmpty := by
  rw [Bool.eq_iff_iff, empty_iff, h.size_eq, List.length_eq_zero_iff, List.isEmpty_iff]

theorem Represents.full_eq (h : Represents r q) : r.full = (q.items.length == cap) := by
  rw [Bool.eq_iff_iff, full_iff, h.size_eq, h.count_eq, beq_iff_eq]

/-- Each allowed call returns the list's reply and keeps the representation. -/
theorem call_refines (b : Build) :
    ObjectRefinement (call b) Allowed (@fifoCall cap) Represents := by
  intro r q c hR hallowed
  have hsize := hR.size_eq
  cases c with
  | pushBack item =>
    obtain ⟨hfull, hlen⟩ := hallowed
    -- "not full" leaves room, because a valid ring never holds more than `itemCount`
    have hroom : r.size.toNat < r.itemCount.toNat := by
      have hne : r.size.toNat ≠ r.itemCount.toNat := by
        rw [ne_eq, ← full_iff, hfull]
        exact Bool.false_ne_true
      have := hR.size_le
      omega
    obtain ⟨hpush, hvalid, hcontents⟩ := hR.toValid.pushBack_spec (b := b) hlen.ge hroom
    have hcap : q.items.length < cap := by rw [← hsize, ← hR.count_eq]; exact hroom
    refine ⟨r.pushed item, q.push item hcap, .done, ?_, ?_, ?_⟩
    · simp [call, hpush, bind, Except.bind, pure, Except.pure]
    · simp [fifoCall, hcap]
    · refine ⟨hvalid, hR.count_eq, ?_⟩
      rw [hcontents, hR.contents_eq, ← hlen, List.take_length, BoundedFifo.push_items]
  | popFront =>
    have hne : r.size.toNat ≠ 0 := (empty_eq_false_iff r).mp hallowed
    obtain ⟨hpop, hvalid, hcontents⟩ := hR.toValid.popFront_spec (b := b) hne
    have hnil : q.items ≠ [] := by
      intro hnil
      rw [hsize, hnil] at hne
      exact hne rfl
    refine ⟨r.popped, q.pop, .done, ?_, ?_, ?_⟩
    · simp [call, hpop, bind, Except.bind, pure, Except.pure]
    · simp [fifoCall, hnil]
    · refine ⟨hvalid, hR.count_eq, ?_⟩
      rw [BoundedFifo.pop_items, ← hR.contents_eq, hcontents, List.tail_cons]
  | front =>
    refine ⟨r, q, _, rfl, ?_, hR⟩
    rw [fifoCall, frontBytes_eq, hR.contents_eq]
  | size => exact ⟨r, q, _, rfl, by rw [fifoCall, hsize], hR⟩
  | empty => exact ⟨r, q, _, rfl, by rw [fifoCall, hR.empty_eq], hR⟩
  | full => exact ⟨r, q, _, rfl, by rw [fifoCall, hR.full_eq], hR⟩

/-- **OsRing is a bounded FIFO.** In every build, a ring that the constructor has set up
with an admissible count answers every legal sequence of calls, however long, exactly as
the list does, and ends up storing what the list holds. Nothing is said about where the
two 16-bit indices stand, so they may wrap as often as the sequence makes them. -/
theorem osRing_refines_boundedFifo (b : Build) (heap : Allocator)
    (itemSize itemCount : UInt16) (r₀ : OsRing) (hcount : countOk itemCount = true)
    (hnew : construct b heap itemSize itemCount = .ok r₀) (calls : List Call)
    (hlegal : LegalCalls (call b) Allowed r₀ calls) :
    ∃ (r : OsRing) (q : BoundedFifo (List UInt8) itemCount.toNat) (replies : List Reply),
      runCalls (call b) r₀ calls = .ok (r, replies) ∧
        runCalls fifoCall (BoundedFifo.nil : BoundedFifo (List UInt8) itemCount.toNat) calls =
          .ok (q, replies) ∧
        r.contents = q.items := by
  obtain ⟨hvalid, hempty⟩ := construct_spec hcount hnew
  obtain ⟨-, -, hcnt, -⟩ := construct_eq_ok hnew
  have hR : Represents r₀ (BoundedFifo.nil : BoundedFifo (List UInt8) itemCount.toNat) :=
    ⟨hvalid, by rw [hcnt], hempty⟩
  obtain ⟨r, q, replies, hring, hfifo, hend⟩ := (call_refines b).run hR hlegal
  exact ⟨r, q, replies, hring, hfifo, hend.contents_eq⟩

/-- Calls on a ring of two messages of two bytes, one of which finds the slot of a popped
message again. -/
def sampleCalls : List Call :=
  [.pushBack [1, 2], .pushBack [3, 4], .full, .popFront, .pushBack [5, 6], .front]

/-- A ring of two messages of two bytes, as constructed. -/
def sampleRing : OsRing :=
  { buffer := [0, 0, 0, 0], itemSize := 2, itemCount := 2, readIndex := 0, writeIndex := 0 }

theorem osRing_refines_boundedFifo_sample :
    LegalCalls (call ⟨false⟩) Allowed sampleRing sampleCalls ∧
      ∃ (r : OsRing) (q : BoundedFifo (List UInt8) 2) (replies : List Reply),
        runCalls (call ⟨false⟩) sampleRing sampleCalls = .ok (r, replies) ∧
          runCalls fifoCall (BoundedFifo.nil : BoundedFifo (List UInt8) 2) sampleCalls =
            .ok (q, replies) ∧
          r.contents = q.items := by
  have hlegal : LegalCalls (call ⟨false⟩) Allowed sampleRing sampleCalls := by decide
  exact ⟨hlegal, osRing_refines_boundedFifo ⟨false⟩ .zeroed 2 2 sampleRing (by decide) rfl
    sampleCalls hlegal⟩

end Poski.OsRing
