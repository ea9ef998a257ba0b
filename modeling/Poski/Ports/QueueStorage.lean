import Poski.Posix.Storage
import Poski.Zephyr.Queue

/-!
# What pos_queue_init Promises, on POSIX and on Zephyr

Both ports return `POS_OK` for sizes that their arithmetic has cut short: on POSIX the
arguments lose all but 16 bits, and with `NDEBUG` any count is taken; on Zephyr the number
of bytes is a product modulo `2 ^ 32`.

- `init_ok_without_storage` : both ports return `POS_OK` for a queue that is too small
- `init_ok_stores_iff` : exactly which requests are met
-/

namespace Poski.Ports

open Zephyr (KMsgq KState)

/-! ## A kernel queue that behaves as documented -/

def ENOMSG : Int := 35

/-- A `k_msgq` that keeps its messages in a list, and knows which slot each would take. -/
def listKernel : KMsgq KState where
  init buffer msgSize maxMsgs := ⟨buffer.length, msgSize.toNat, maxMsgs.toNat, [], 0⟩
  put s data :=
    if s.stored.length < s.maxMsgs then
      if (s.next + 1) * s.msgSize ≤ s.bufferLen then .ok (s.push data, 0)
      else .error .outOfBounds
    else .ok (s, -ENOMSG)
  get s out tmo :=
    match s.stored, tmo with
    | data :: rest, _ => .ok ({ s with stored := rest }, data, 0)
    | [], .noWait => .ok (s, out, -ENOMSG)
    | [], .msec _ => .ok (s, out, -Zephyr.EAGAIN)
    | [], .forever => .error .blocked

theorem listKernel_documented : listKernel.Documented (· = ·) where
  init _ _ _ := rfl
  put_inside k s data hR hfree _ hslot := by
    subst hR
    exact ⟨_, by simp [listKernel, hfree, hslot], rfl⟩
  put_outside k s data hR hfree _ hslot := by
    subst hR
    simp [listKernel, hfree, Nat.not_le_of_lt hslot]
  get_stored k s out tmo data rest hR hstored _ := by
    subst hR
    exact ⟨_, by simp only [listKernel, hstored], rfl⟩

/-! ## The two ports together -/

/-- 65537 messages of one byte on POSIX, 65536 messages of 65536 bytes on Zephyr. -/
theorem init_ok_without_storage :
    (¬∀ (msgSize maxMsgs : UInt64) (msgq : Posix.PosQueue),
        Posix.posQueueInit ⟨false⟩ .zeroed msgSize maxMsgs = .ok (msgq, .ok) →
          StoresAll (Posix.posQueuePut ⟨false⟩) (Posix.posQueueGet ⟨false⟩) msgq
            msgSize.toNat maxMsgs.toNat) ∧
      ¬∀ (msgSize maxMsgs : UInt32) (msgq msgq' : Zephyr.PosQueue KState),
        Zephyr.posQueueInit listKernel .zeroed msgq msgSize maxMsgs = (msgq', .ok) →
          StoresAll (Zephyr.posQueuePut listKernel) (Zephyr.posQueueGet listKernel) msgq'
            msgSize.toNat maxMsgs.toNat := by
  constructor
  · intro halways
    have hinit : Posix.posQueueInit ⟨false⟩ .zeroed 1 65537 =
        .ok (⟨some ⟨[0], 1, 1, 0, 0⟩, none, 0⟩, .ok) := rfl
    have hfit := (Posix.storesAll_iff hinit).mp (halways _ _ _ hinit)
    unfold Posix.Storable at hfit
    exact absurd hfit (by decide)
  · intro halways
    have hinit : Zephyr.posQueueInit listKernel .zeroed ⟨⟨0, 0, 0, [], 0⟩, none, none, 0⟩
        65536 65536 = (⟨⟨0, 65536, 65536, [], 0⟩, some 0, none, 0⟩, .ok) := rfl
    have hfit := (Zephyr.storesAll_iff listKernel_documented hinit).mp (halways _ _ _ _ hinit)
    exact absurd hfit (by decide)

/-- **When POS_OK means what it says**: on POSIX, if both sizes fit into 16 bits and the
count is a power of two (or there are no messages, or no bytes, to store); on Zephyr, if
the number of bytes is below `2 ^ 32`. -/
theorem init_ok_stores_iff {K : Type} {kernel : KMsgq K} {R : K → KState → Prop}
    (hdoc : kernel.Documented R) (b : Build) (heap : Allocator) :
    (∀ (msgSize maxMsgs : UInt64) (msgq : Posix.PosQueue),
        Posix.posQueueInit b heap msgSize maxMsgs = .ok (msgq, .ok) →
          (StoresAll (Posix.posQueuePut b) (Posix.posQueueGet b) msgq
              msgSize.toNat maxMsgs.toNat ↔ Posix.Storable msgSize maxMsgs)) ∧
      ∀ (msgSize maxMsgs : UInt32) (msgq msgq' : Zephyr.PosQueue K),
        Zephyr.posQueueInit kernel heap msgq msgSize maxMsgs = (msgq', .ok) →
          (StoresAll (Zephyr.posQueuePut kernel) (Zephyr.posQueueGet kernel) msgq'
              msgSize.toNat maxMsgs.toNat ↔ msgSize.toNat * maxMsgs.toNat < 2 ^ 32) := by
  constructor
  · intro msgSize maxMsgs msgq hinit
    exact Posix.storesAll_iff hinit
  · intro msgSize maxMsgs msgq msgq' hinit
    exact Zephyr.storesAll_iff hdoc hinit

/-- Four messages of three bytes, on both ports. -/
theorem init_ok_stores_four :
    StoresAll (Posix.posQueuePut ⟨true⟩) (Posix.posQueueGet ⟨true⟩)
        ⟨some ⟨List.replicate 12 0, 3, 4, 0, 0⟩, none, 0⟩ 3 4 ∧
      StoresAll (Zephyr.posQueuePut listKernel) (Zephyr.posQueueGet listKernel)
        ⟨⟨12, 3, 4, [], 0⟩, some 12, none, 0⟩ 3 4 := by
  obtain ⟨hposix, hzephyr⟩ := init_ok_stores_iff listKernel_documented ⟨true⟩ .zeroed
  constructor
  · exact (hposix 3 4 _ rfl).mpr (.inr ⟨by decide, by decide, .inr (by decide)⟩)
  · exact (hzephyr 3 4 ⟨⟨0, 0, 0, [], 0⟩, none, none, 0⟩ _ rfl).mpr (by decide)

end Poski.Ports
