import Poski.Osal.Types
import Poski.Spec.BoundedFifo

/-!
# The FreeRTOS Queue

`os_queue.c` of the FreeRTOS port. `pos_queue_get` asserts that the native receive has
returned `pdPASS` or `errQUEUE_EMPTY`, and then returns `POS_OK` in either case;
`pos_queue_put` asserts `pdPASS`, and returns `POS_OK`.

The native queue is a parameter. A call is one step, taken at the moment at which its
native call takes effect; a call that has to wait takes its step when it no longer does.

- `QueueKernel.Documented` : what is relied on
- `get_ok_on_empty` : `POS_OK` without a message
- `queue_simulates_fifo` : calls that are served make a FIFO
- `get_ok_iff_served` : exactly when a get tells the truth, and what follows for runs
-/

namespace Poski.FreeRtos

open Lib Spec

/-! ## The native queue -/

abbrev BaseType := Int

def pdPASS : BaseType := 1
def errQUEUE_EMPTY : BaseType := 0
def errQUEUE_FULL : BaseType := 0
def portMAX_DELAY : UInt32 := 0xFFFFFFFF

/-- The four calls that the port makes, on a queue `Q`: `data` is the memory that the
pointer argument leads to. -/
structure QueueKernel (Q : Type) where
  xQueueReceive : Q → List UInt8 → UInt32 → Except Halt (Q × List UInt8 × BaseType)
  xQueueReceiveFromISR : Q → List UInt8 → Except Halt (Q × List UInt8 × BaseType)
  xQueueSendToBack : Q → List UInt8 → UInt32 → Except Halt (Q × BaseType)
  xQueueSendToBackFromISR : Q → List UInt8 → Except Halt (Q × BaseType)

variable {Q : Type}

/-- A receive takes the oldest message out, or finds none and leaves `data` alone. -/
def Received (stored : Q → List (List UInt8)) (q : Q) (data : List UInt8)
    (res : Q × List UInt8 × BaseType) : Prop :=
  res.2.2 = pdPASS ∧ stored q = res.2.1 :: stored res.1 ∨
    res.2.2 = errQUEUE_EMPTY ∧ stored q = [] ∧ stored res.1 = [] ∧ res.2.1 = data

/-- A send appends the message, or finds no room. -/
def Sent (stored : Q → List (List UInt8)) (capacity : ℕ) (q : Q) (data : List UInt8)
    (res : Q × BaseType) : Prop :=
  res.2 = pdPASS ∧ (stored q).length < capacity ∧ stored res.1 = stored q ++ [data] ∨
    res.2 = errQUEUE_FULL ∧ capacity ≤ (stored q).length ∧ stored res.1 = stored q

/-- The documented behaviour of a native queue that holds up to `capacity` messages. -/
structure QueueKernel.Documented (kernel : QueueKernel Q) (stored : Q → List (List UInt8))
    (capacity : ℕ) : Prop where
  receive : ∀ q data tmo res, kernel.xQueueReceive q data tmo = .ok res →
    Received stored q data res
  receiveFromISR : ∀ q data res, kernel.xQueueReceiveFromISR q data = .ok res →
    Received stored q data res
  send : ∀ q data tmo res, kernel.xQueueSendToBack q data tmo = .ok res →
    Sent stored capacity q data res
  sendFromISR : ∀ q data res, kernel.xQueueSendToBackFromISR q data = .ok res →
    Sent stored capacity q data res

/-! ## os_queue.c -/

variable (kernel : QueueKernel Q) (b : Build)

/-- `pos_queue_get`; `inIsr` is `pos_hw_in_isr()`. -/
def posQueueGet (inIsr : Bool) (queue : Q) (data : List UInt8) (tmo : UInt32) :
    Except Halt (Q × List UInt8 × PosError) := do
  let (queue, data, ret) ←
    (if inIsr then do
      b.assert (tmo == 0)
      kernel.xQueueReceiveFromISR queue data
    else
      kernel.xQueueReceive queue data tmo)
  -- either code passes, and neither is looked at again
  b.assert (ret == pdPASS || ret == errQUEUE_EMPTY)
  return (queue, data, .ok)

/-- `pos_queue_put`. -/
def posQueuePut (inIsr : Bool) (queue : Q) (data : List UInt8) : Except Halt (Q × PosError) := do
  let (queue, ret) ←
    (if inIsr then
      kernel.xQueueSendToBackFromISR queue data
    else
      kernel.xQueueSendToBack queue data portMAX_DELAY)
  -- in an ISR a full queue refuses the message
  b.assert (ret == pdPASS)
  return (queue, .ok)

/-- `pos_queue_init` of `os_port.h`, which does not look at the handle that it has got. -/
def posQueueInit (xQueueCreate : ℕ → ℕ → Option Q) (msgSize maxMsgs : ℕ) :
    Option Q × PosError :=
  (xQueueCreate maxMsgs msgSize, .ok)

/-! ## Runs of calls -/

/-- A call that has returned: its arguments, what `data` holds afterwards and the code. -/
inductive Call where
  | get (inIsr : Bool) (data : List UInt8) (tmo : UInt32) (received : List UInt8)
      (err : PosError)
  | put (inIsr : Bool) (data : List UInt8) (err : PosError)

/-- Any sequence of calls on a queue that is empty at first. -/
def queueCalls (stored : Q → List (List UInt8)) : TransitionSystem Q Call where
  init q := stored q = []
  step q call q' :=
    match call with
    | .get inIsr data tmo received err =>
      posQueueGet kernel b inIsr q data tmo = .ok (q', received, err)
    | .put inIsr data err => posQueuePut kernel b inIsr q data = .ok (q', err)

namespace Call

/-- The buffer of a get that returned `POS_OK`. -/
def got : Call → Option (List UInt8)
  | get _ _ _ received .ok => some received
  | _ => none

/-- The message of a put that returned `POS_OK`. -/
def accepted : Call → Option (List UInt8)
  | put _ data .ok => some data
  | _ => none

/-- What a call that tells the truth is for the FIFO. -/
def event : Call → Option (FifoEvent (List UInt8))
  | get _ _ _ received .ok => some (.pop received)
  | put _ data .ok => some (.push data)
  | _ => none

theorem event_pushed (c : Call) : c.event.bind FifoEvent.pushed = c.accepted := by
  match c with
  | get _ _ _ _ err => cases err <;> rfl
  | put _ _ err => cases err <;> rfl

theorem event_popped (c : Call) : c.event.bind FifoEvent.popped = c.got := by
  match c with
  | get _ _ _ _ err => cases err <;> rfl
  | put _ _ err => cases err <;> rfl

end Call

/-! ## What a call does -/

variable {kernel b} {stored : Q → List (List UInt8)} {capacity : ℕ} {q q' : Q}
  {inIsr : Bool} {data received : List UInt8} {tmo : UInt32} {err : PosError}

/-- A get that returns at all returns `POS_OK`, whatever the native receive has done. -/
theorem posQueueGet_cases (hdoc : kernel.Documented stored capacity)
    (h : posQueueGet kernel b inIsr q data tmo = .ok (q', received, err)) :
    err = .ok ∧ (stored q = received :: stored q' ∨
      stored q = [] ∧ stored q' = [] ∧ received = data) := by
  unfold posQueueGet at h
  obtain ⟨⟨queue, item, ret⟩, hnative, hrest⟩ := bind_eq_ok.mp h
  obtain ⟨-, -, hreturn⟩ := bind_eq_ok.mp hrest
  have hres : Received stored q data (queue, item, ret) := by
    cases inIsr with
    | true =>
      obtain ⟨-, -, hcall⟩ := bind_eq_ok.mp hnative
      exact hdoc.receiveFromISR q data _ hcall
    | false => exact hdoc.receive q data tmo _ hnative
  cases hreturn
  rcases hres with ⟨-, hstored⟩ | ⟨-, hempty, hafter, hsame⟩
  · exact ⟨rfl, .inl hstored⟩
  · exact ⟨rfl, .inr ⟨hempty, hafter, hsame⟩⟩

/-- A put that returns at all returns `POS_OK`; only without assertions can the native send
have been refused. -/
theorem posQueuePut_cases (hdoc : kernel.Documented stored capacity)
    (h : posQueuePut kernel b inIsr q data = .ok (q', err)) :
    err = .ok ∧ ((stored q).length < capacity ∧ stored q' = stored q ++ [data] ∨
      b.ndebug = true ∧ capacity ≤ (stored q).length ∧ stored q' = stored q) := by
  unfold posQueuePut at h
  obtain ⟨⟨queue, ret⟩, hnative, hrest⟩ := bind_eq_ok.mp h
  obtain ⟨_, hassert, hreturn⟩ := bind_eq_ok.mp hrest
  have hres : Sent stored capacity q data (queue, ret) := by
    cases inIsr with
    | true => exact hdoc.sendFromISR q data _ hnative
    | false => exact hdoc.send q data portMAX_DELAY _ hnative
  cases hreturn
  rcases hres with ⟨-, hroom, hstored⟩ | ⟨hret, hfull, hstored⟩
  · exact ⟨rfl, .inl ⟨hroom, hstored⟩⟩
  · refine ⟨rfl, .inr ⟨?_, hfull, hstored⟩⟩
    rw [Build.assert_eq_ok] at hassert
    refine hassert.resolve_right ?_
    rw [show ret = errQUEUE_FULL from hret]
    decide

/-! ## Calls that are served -/

/-- A get finds a message; a put finds room, or an assertion that it has. -/
def Served (b : Build) (stored : Q → List (List UInt8)) (capacity : ℕ) (q : Q) : Call → Prop
  | .get .. => stored q ≠ []
  | .put .. => b.ndebug = true → (stored q).length < capacity

/-- **Calls that are served make a FIFO**: each get returns the message it has removed, and
each put has appended its own. -/
theorem queue_simulates_fifo (hdoc : kernel.Documented stored capacity) :
    Simulation (queueCalls kernel b stored) (Served b stored capacity)
      (fifo (List UInt8) capacity) Call.event (fun q fifo => stored q = fifo.items) where
  init q hinit := ⟨.nil, rfl, hinit⟩
  hidden q call q' s hR hserved hstep hevent := by
    cases call with
    | get inIsr data tmo received err =>
      obtain ⟨rfl, -⟩ := posQueueGet_cases hdoc hstep
      cases hevent
    | put inIsr data err =>
      obtain ⟨rfl, -⟩ := posQueuePut_cases hdoc hstep
      cases hevent
  visible q call q' s e hR hserved hstep hevent := by
    cases call with
    | get inIsr data tmo received err =>
      obtain ⟨rfl, hstored | ⟨hempty, -⟩⟩ := posQueueGet_cases hdoc hstep
      · cases hevent
        have hitems : s.items = received :: stored q' := hR.symm.trans hstored
        refine ⟨s.pop, ?_, ?_⟩
        · show s.items = received :: s.pop.items
          rw [BoundedFifo.pop_items, hitems, List.tail_cons]
        · rw [BoundedFifo.pop_items, hitems, List.tail_cons]
      · -- a get that is served finds a message
        exact absurd hempty hserved
    | put inIsr data err =>
      obtain ⟨rfl, ⟨hroom, hstored⟩ | ⟨hndebug, hfull, -⟩⟩ := posQueuePut_cases hdoc hstep
      · cases hevent
        have hroom' : s.items.length < capacity := hR ▸ hroom
        refine ⟨s.push data hroom', rfl, ?_⟩
        rw [hstored, hR, BoundedFifo.push_items]
      · -- a put that is served finds room
        exact absurd (hserved hndebug) (Nat.not_lt.mpr hfull)

/-- **When a get tells the truth.** In any run, a get that returns has returned `POS_OK`
exactly for a removed message if and only if the queue stored one. And in a run whose calls
are all served, the buffers returned with `POS_OK`, followed by what is stored, are the
messages put with `POS_OK`. -/
theorem get_ok_iff_served (hdoc : kernel.Documented stored capacity) :
    (∀ q inIsr data tmo received err q', (queueCalls kernel b stored).Reachable q →
        (queueCalls kernel b stored).step q (.get inIsr data tmo received err) q' →
          ((err = .ok ↔ stored q = received :: stored q') ↔ stored q ≠ [])) ∧
      ∀ calls q, (queueCalls kernel b stored).Run (Served b stored capacity) calls q →
        calls.filterMap Call.accepted = calls.filterMap Call.got ++ stored q := by
  constructor
  · intro q inIsr data tmo received err q' _ hstep
    obtain ⟨rfl, hstored | ⟨hempty, -⟩⟩ := posQueueGet_cases hdoc hstep
    · simp [hstored]
    · simp [hempty]
  · intro calls q hrun
    obtain ⟨s, hfifo, hR⟩ := (queue_simulates_fifo hdoc).run hrun
    have hhistory := fifo_history hfifo
    simp only [List.filterMap_filterMap, Call.event_pushed, Call.event_popped] at hhistory
    rw [hhistory, hR]

/-! ## Calls that need not wait -/

/-- A native call that need not wait returns. -/
structure QueueKernel.Serves (kernel : QueueKernel Q) (stored : Q → List (List UInt8))
    (capacity : ℕ) : Prop where
  receive : ∀ q data tmo, stored q ≠ [] → ∃ res, kernel.xQueueReceive q data tmo = .ok res
  receiveFromISR : ∀ q data, stored q ≠ [] → ∃ res, kernel.xQueueReceiveFromISR q data = .ok res
  send : ∀ q data tmo, (stored q).length < capacity →
    ∃ res, kernel.xQueueSendToBack q data tmo = .ok res
  sendFromISR : ∀ q data, (stored q).length < capacity →
    ∃ res, kernel.xQueueSendToBackFromISR q data = .ok res

/-- A put that finds room appends its message, in a task and in an ISR. -/
theorem posQueuePut_of_room (hdoc : kernel.Documented stored capacity)
    (hserves : kernel.Serves stored capacity) (hroom : (stored q).length < capacity)
    (inIsr : Bool) (data : List UInt8) :
    ∃ q', posQueuePut kernel b inIsr q data = .ok (q', .ok) ∧ stored q' = stored q ++ [data] := by
  have hsent {res : Q × BaseType} (hres : Sent stored capacity q data res) :
      res.2 = pdPASS ∧ stored res.1 = stored q ++ [data] := by
    rcases hres with ⟨hpass, -, hstored⟩ | ⟨-, hfull, -⟩
    · exact ⟨hpass, hstored⟩
    · exact absurd hroom (Nat.not_lt.mpr hfull)
  cases inIsr with
  | true =>
    obtain ⟨⟨q', ret⟩, hcall⟩ := hserves.sendFromISR q data hroom
    obtain ⟨rfl, hstored⟩ := hsent (hdoc.sendFromISR q data _ hcall)
    exact ⟨q', by simp [posQueuePut, hcall, bind, Except.bind, pure, Except.pure], hstored⟩
  | false =>
    obtain ⟨⟨q', ret⟩, hcall⟩ := hserves.send q data portMAX_DELAY hroom
    obtain ⟨rfl, hstored⟩ := hsent (hdoc.send q data portMAX_DELAY _ hcall)
    exact ⟨q', by simp [posQueuePut, hcall, bind, Except.bind, pure, Except.pure], hstored⟩

/-- A get that finds a message delivers it, in a task and in an ISR. -/
theorem posQueueGet_of_stored (hdoc : kernel.Documented stored capacity)
    (hserves : kernel.Serves stored capacity) {item : List UInt8} {rest : List (List UInt8)}
    (hstored : stored q = item :: rest) (inIsr : Bool) (data : List UInt8) :
    ∃ q', posQueueGet kernel b inIsr q data 0 = .ok (q', item, .ok) ∧ stored q' = rest := by
  have hne : stored q ≠ [] := by simp [hstored]
  have hreceived {res : Q × List UInt8 × BaseType} (hres : Received stored q data res) :
      res.2.2 = pdPASS ∧ res.2.1 = item ∧ stored res.1 = rest := by
    rcases hres with ⟨hpass, hcons⟩ | ⟨-, hempty, -⟩
    · rw [hstored, List.cons.injEq] at hcons
      exact ⟨hpass, hcons.1.symm, hcons.2.symm⟩
    · exact absurd hempty hne
  cases inIsr with
  | true =>
    obtain ⟨⟨q', item', ret⟩, hcall⟩ := hserves.receiveFromISR q data hne
    obtain ⟨rfl, rfl, hrest⟩ := hreceived (hdoc.receiveFromISR q data _ hcall)
    exact ⟨q', by simp [posQueueGet, hcall, bind, Except.bind, pure, Except.pure], hrest⟩
  | false =>
    obtain ⟨⟨q', item', ret⟩, hcall⟩ := hserves.receive q data 0 hne
    obtain ⟨rfl, rfl, hrest⟩ := hreceived (hdoc.receive q data 0 _ hcall)
    exact ⟨q', by simp [posQueueGet, hcall, bind, Except.bind, pure, Except.pure], hrest⟩

/-! ## A get on an empty queue -/

/-- A native queue that is a list of messages. -/
def listKernel (capacity : ℕ) : QueueKernel (List (List UInt8)) where
  xQueueReceive q data tmo :=
    match q with
    | item :: items => .ok (items, item, pdPASS)
    | [] => if tmo = portMAX_DELAY then .error .blocked else .ok ([], data, errQUEUE_EMPTY)
  xQueueReceiveFromISR q data :=
    match q with
    | item :: items => .ok (items, item, pdPASS)
    | [] => .ok ([], data, errQUEUE_EMPTY)
  xQueueSendToBack q data tmo :=
    if q.length < capacity then .ok (q ++ [data], pdPASS)
    else if tmo = portMAX_DELAY then .error .blocked else .ok (q, errQUEUE_FULL)
  xQueueSendToBackFromISR q data :=
    if q.length < capacity then .ok (q ++ [data], pdPASS) else .ok (q, errQUEUE_FULL)

theorem listKernel_documented (capacity : ℕ) : (listKernel capacity).Documented id capacity where
  receive q data tmo res h := by
    match q with
    | item :: items =>
      cases h
      exact .inl ⟨rfl, rfl⟩
    | [] =>
      by_cases htmo : tmo = portMAX_DELAY
      · simp [listKernel, htmo] at h
      · simp only [listKernel, htmo, if_false] at h
        cases h
        exact .inr ⟨rfl, rfl, rfl, rfl⟩
  receiveFromISR q data res h := by
    match q with
    | item :: items =>
      cases h
      exact .inl ⟨rfl, rfl⟩
    | [] =>
      cases h
      exact .inr ⟨rfl, rfl, rfl, rfl⟩
  send q data tmo res h := by
    by_cases hroom : q.length < capacity
    · simp only [listKernel, hroom, if_true] at h
      cases h
      exact .inl ⟨rfl, hroom, rfl⟩
    · by_cases htmo : tmo = portMAX_DELAY
      · simp [listKernel, hroom, htmo] at h
      · simp only [listKernel, hroom, htmo, if_false] at h
        cases h
        exact .inr ⟨rfl, Nat.le_of_not_lt hroom, rfl⟩
  sendFromISR q data res h := by
    by_cases hroom : q.length < capacity
    · simp only [listKernel, hroom, if_true] at h
      cases h
      exact .inl ⟨rfl, hroom, rfl⟩
    · simp only [listKernel, hroom, if_false] at h
      cases h
      exact .inr ⟨rfl, Nat.le_of_not_lt hroom, rfl⟩

theorem listKernel_serves (capacity : ℕ) : (listKernel capacity).Serves id capacity where
  receive q data tmo hne := by
    obtain ⟨item, rest, rfl⟩ := List.exists_cons_of_ne_nil hne
    exact ⟨_, rfl⟩
  receiveFromISR q data hne := by
    obtain ⟨item, rest, rfl⟩ := List.exists_cons_of_ne_nil hne
    exact ⟨_, rfl⟩
  send q data tmo hroom := by
    have hroom' : q.length < capacity := hroom
    exact ⟨_, by simp only [listKernel, hroom', if_true]; rfl⟩
  sendFromISR q data hroom := by
    have hroom' : q.length < capacity := hroom
    exact ⟨_, by simp only [listKernel, hroom', if_true]; rfl⟩

/-- A get that does not wait, on a new queue, returns `POS_OK`. -/
theorem get_ok_on_empty :
    ¬∀ calls q, (queueCalls (listKernel 1) ⟨false⟩ id).Run (fun _ _ => True) calls q →
      calls.filterMap Call.got <+: calls.filterMap Call.accepted := by
  intro halways
  have h0 : (queueCalls (listKernel 1) ⟨false⟩ id).Run (fun _ _ => True) [] [] := .start rfl
  have h1 := h0.next (.get false [9] 0 [9] .ok) trivial rfl
  have hprefix := halways _ _ h1
  exact absurd hprefix (by decide)

/-- A message is put and got; a second get would not tell the truth. -/
theorem get_ok_iff_served_once :
    ∃ calls q, (queueCalls (listKernel 1) ⟨true⟩ id).Run (Served ⟨true⟩ id 1) calls q ∧
      calls.filterMap Call.got = [[5]] ∧
      calls.filterMap Call.accepted = calls.filterMap Call.got ++ q ∧
      ∃ received err q', (queueCalls (listKernel 1) ⟨true⟩ id).step q
        (.get true [0] 0 received err) q' ∧ ¬(err = .ok ↔ q = received :: q') := by
  have h0 : (queueCalls (listKernel 1) ⟨true⟩ id).Run (Served ⟨true⟩ id 1) [] [] := .start rfl
  have h1 := h0.next (.put true [5] .ok) (fun _ => Nat.zero_lt_one) rfl
  have h2 := h1.next (.get true [0] 0 [5] .ok) (List.cons_ne_nil _ _) rfl
  obtain ⟨htruth, hfifo⟩ := get_ok_iff_served (b := ⟨true⟩) (listKernel_documented 1)
  have hreach : (queueCalls (listKernel 1) ⟨true⟩ id).Reachable [] :=
    ⟨_, h2.mono fun _ _ _ => trivial⟩
  -- the queue is empty again, and a get returns `POS_OK` with its buffer as it was
  refine ⟨_, _, h2, rfl, hfifo _ _ h2, [0], .ok, [], rfl, fun htells => ?_⟩
  exact (htruth [] true [0] 0 [0] .ok [] hreach rfl).mp htells rfl

end Poski.FreeRtos
