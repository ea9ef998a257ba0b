import Poski.Posix.QueueFifo
import Poski.Posix.Time
import Poski.Programs.TestProgram

/-!
# The Queue Test

`test_os_queue.c`, run over the queues of the POSIX port. The first task tries a queue of its
own (`test_queue_units`), and then, in each round, puts a message into `s_task2_queue` and
gets one from `s_task1_queue`; the second task gets from the former and puts into the latter.
Both compare what they get with what the other one has put.

- `MyMsg.ofBytes_toBytes` : the fields arrive as they were sent
- `Holds` : what a queue of the test stores
- `At` : where the program is
- `queueTest_passes` : it passes in every schedule
-/

namespace Poski.Programs.QueueTest

open Posix Spec

/-! ## Messages -/

/-- `my_msg_t`; the fields are the bits of its three `int`s. -/
structure MyMsg where
  type : UInt32
  value : UInt32
  param : UInt32
  deriving DecidableEq, Repr

/-- The bytes of an `int`, the lowest first. -/
def wordBytes (n : UInt32) : List UInt8 :=
  [n.toNat, n.toNat / 256, n.toNat / 65536, n.toNat / 16777216].map UInt8.ofNat

/-- The `int` at the start of some bytes. -/
def wordAt : List UInt8 → UInt32
  | b₀ :: b₁ :: b₂ :: b₃ :: _ =>
    UInt32.ofNat (b₀.toNat + 256 * b₁.toNat + 65536 * b₂.toNat + 16777216 * b₃.toNat)
  | _ => 0

theorem wordAt_wordBytes (n : UInt32) (bytes : List UInt8) :
    wordAt (wordBytes n ++ bytes) = n := by
  have hlt := n.toNat_lt
  rw [← UInt32.toNat_inj]
  simp only [wordBytes, List.map_cons, List.map_nil, List.cons_append, List.nil_append, wordAt,
    UInt32.toNat_ofNat', UInt8.toNat_ofNat']
  omega

/-- The memory of a message. -/
def MyMsg.toBytes (m : MyMsg) : List UInt8 :=
  wordBytes m.type ++ (wordBytes m.value ++ wordBytes m.param)

/-- The message in some memory. -/
def MyMsg.ofBytes (bytes : List UInt8) : MyMsg where
  type := wordAt bytes
  value := wordAt (bytes.drop 4)
  param := wordAt (bytes.drop 8)

/-- `sizeof(my_msg_t)`. -/
def sizeofMyMsg : UInt64 := 12

theorem MyMsg.length_toBytes (m : MyMsg) : m.toBytes.length = sizeofMyMsg.toNat := rfl

/-- What is written as a message is read as that message. -/
theorem MyMsg.ofBytes_toBytes (m : MyMsg) : ofBytes m.toBytes = m := by
  have hvalue : m.toBytes.drop 4 = wordBytes m.value ++ wordBytes m.param := rfl
  have hparam : m.toBytes.drop 8 = wordBytes m.param ++ [] := by
    rw [List.append_nil]
    rfl
  simp only [ofBytes, hvalue, hparam, wordAt_wordBytes]
  rw [toBytes, wordAt_wordBytes]

/-! ## The program -/

def TEST_ITERATIONS : ℕ := 100

def TEST_QUEUE_SIZE : UInt64 := 32

def TEST_MSGS_COUNT : ℕ := 4

/-- `s_task1_msgs_src[idx]` -/
def task1MsgsSrc (idx : ℕ) : MyMsg :=
  ⟨UInt32.ofNat idx, UInt32.ofNat idx, UInt32.ofNat (10000 + idx)⟩

/-- `s_task2_msgs_src[idx]` -/
def task2MsgsSrc (idx : ℕ) : MyMsg :=
  ⟨UInt32.ofNat idx, UInt32.ofNat (20 + idx), UInt32.ofNat (20000 + idx)⟩

/-- Where `task1_run` is: in `test_queue_units`, or in iteration `i` of its loop. -/
inductive Pc1 where
  | unitInit
  | unitPut
  | unitGet
  | unitPutAgain
  | put (i : ℕ)
  | get (i : ℕ)
  deriving DecidableEq, Repr

/-- Where `task2_run` is, with its `idx` before the remainder is taken. -/
inductive Pc2 where
  | get (i : ℕ)
  | put (i : ℕ)
  deriving DecidableEq, Repr

/-- The static variables; a queue that is zeroed has no ring. -/
structure State where
  queue : PosQueue
  task1Queue : PosQueue
  task2Queue : PosQueue
  task1MsgRx : List UInt8
  task2MsgRx : List UInt8
  pc1 : Pc1
  pc2 : Pc2
  exited : Option Exit

/-- `struct pos_queue` in zeroed memory. -/
def zeroedQueue : PosQueue := { q := none, sigCb := none, sigArg := 0 }

/-- `pos_queue_inited`. -/
def posQueueInited (msgq : PosQueue) : Bool := msgq.q.isSome

variable (b : Build) (heap : Allocator)

/-- `VerifyOrQuit` and `SuccessOrQuit`: the task goes on to `s'`, or the program ends. -/
def verifyOrQuit (cond : Bool) (s s' : State) : State :=
  if cond then s' else { s with exited := some .fail }

/-- `test_queue_init`, which does not look at what `pos_queue_init` returns; `none` if a check
fails. -/
def testQueueInit (q : PosQueue) : Except Halt (Option PosQueue) := do
  if posQueueInited q then return none
  let (q, _) ← posQueueInit b heap sizeofMyMsg TEST_QUEUE_SIZE
  return if posQueueInited q then some q else none

/-- `test_get_verify`. -/
def testGetVerify (msgRx : List UInt8) (msgSrc : MyMsg) : Bool :=
  let m := MyMsg.ofBytes msgRx
  m.type == msgSrc.type && m.value == msgSrc.value && m.param == msgSrc.param

/-- The next call of `task1_run`. -/
def task1Run (s : State) : Except Halt State :=
  match s.pc1 with
  | .unitInit => do
    match ← testQueueInit b heap s.queue with
    | none => return { s with exited := some .fail }
    | some q => return { s with queue := q, pc1 := .unitPut }
  | .unitPut => do
    -- `test_put` and `test_get` ignore the codes
    let (q, _, _) ← posQueuePut b s.queue (task1MsgsSrc 0).toBytes
    return { s with queue := q, pc1 := .unitGet }
  | .unitGet => do
    let (q, rx, _) ← posQueueGet b s.queue s.task1MsgRx POS_TIME_FOREVER
    let s' := { s with queue := q, task1MsgRx := rx }
    return verifyOrQuit (testGetVerify rx (task1MsgsSrc 0)) s' { s' with pc1 := .unitPutAgain }
  | .unitPutAgain => do
    -- nobody gets this message
    let (q, _, _) ← posQueuePut b s.queue (task1MsgsSrc 0).toBytes
    return { s with queue := q, pc1 := .put 0 }
  | .put i => do
    let (q, err, _) ← posQueuePut b s.task2Queue (task2MsgsSrc (i % TEST_MSGS_COUNT)).toBytes
    let s' := { s with task2Queue := q }
    return verifyOrQuit (err == .ok) s' { s' with pc1 := .get i }
  | .get i => do
    -- after its last iteration the task calls `exit(PASS)`
    let (q, rx, err) ← posQueueGet b s.task1Queue s.task1MsgRx POS_TIME_FOREVER
    let s' := { s with task1Queue := q, task1MsgRx := rx }
    return verifyOrQuit
      (err == .ok && testGetVerify rx (task1MsgsSrc (i % TEST_MSGS_COUNT))) s'
      (if i + 1 < TEST_ITERATIONS then { s' with pc1 := .put (i + 1) }
      else { s' with exited := some .pass })

/-- The next call of `task2_run`. -/
def task2Run (s : State) : Except Halt State :=
  match s.pc2 with
  | .get i => do
    let (q, rx, err) ← posQueueGet b s.task2Queue s.task2MsgRx POS_TIME_FOREVER
    let s' := { s with task2Queue := q, task2MsgRx := rx }
    return verifyOrQuit
      (err == .ok && testGetVerify rx (task2MsgsSrc (i % TEST_MSGS_COUNT))) s'
      { s' with pc2 := .put i }
  | .put i => do
    let (q, err, _) ← posQueuePut b s.task1Queue (task1MsgsSrc (i % TEST_MSGS_COUNT)).toBytes
    let s' := { s with task1Queue := q }
    return verifyOrQuit (err == .ok) s' { s' with pc2 := .get (i + 1) }

/-- The program, once `main` has made the two queues. -/
def queueTest : TestProgram State where
  init s :=
    s.queue = zeroedQueue ∧ testQueueInit b heap zeroedQueue = .ok (some s.task1Queue) ∧
      testQueueInit b heap zeroedQueue = .ok (some s.task2Queue) ∧
      s.task1MsgRx.length = sizeofMyMsg.toNat ∧ s.task2MsgRx.length = sizeofMyMsg.toNat ∧
      s.pc1 = .unitInit ∧ s.pc2 = .get 0 ∧ s.exited = none
  run
    | .task1 => task1Run b heap
    | .task2 => task2Run b
  exited := State.exited

/-! ## What the queues store -/

variable {b : Build} {heap : Allocator} {msgq : PosQueue} {items : List MyMsg} {m : MyMsg}
  {out : List UInt8}

/-- The queue is one of `TEST_QUEUE_SIZE` messages, and stores these. -/
def Holds (msgq : PosQueue) (items : List MyMsg) : Prop :=
  ∃ q : BoundedFifo (List UInt8) TEST_QUEUE_SIZE.toNat,
    QueueHolds sizeofMyMsg.toNat msgq q ∧ q.items = items.map MyMsg.toBytes

theorem holds_of_testQueueInit (h : testQueueInit b heap zeroedQueue = .ok (some msgq)) :
    Holds msgq [] := by
  simp only [testQueueInit, posQueueInited, zeroedQueue, Option.isSome_none, Bool.false_eq_true,
    if_false] at h
  obtain ⟨⟨q, err⟩, hinit, h⟩ := bind_eq_ok.mp h
  obtain rfl := posQueueInit_status hinit
  have hq : q = msgq := by
    by_cases hsome : q.q.isSome = true
    · simpa [hsome, pure, Except.pure] using h
    · simp [hsome, pure, Except.pure] at h
  subst hq
  exact ⟨.nil, queueHolds_of_init (by decide) rfl rfl hinit, rfl⟩

theorem Holds.put (h : Holds msgq items) (hroom : items.length < TEST_QUEUE_SIZE.toNat)
    (m : MyMsg) :
    ∃ msgq' signal, posQueuePut b msgq m.toBytes = .ok (msgq', .ok, signal) ∧
      Holds msgq' (items ++ [m]) := by
  obtain ⟨q, hq, hitems⟩ := h
  have hfree : q.items.length < TEST_QUEUE_SIZE.toNat := by
    rw [hitems, List.length_map]
    exact hroom
  obtain ⟨msgq', hput, hq'⟩ := hq.put (b := b) m.length_toBytes hfree
  refine ⟨msgq', _, hput, _, hq', ?_⟩
  rw [BoundedFifo.push_items, hitems, List.map_append]
  rfl

theorem Holds.get (h : Holds msgq (m :: items)) (hout : out.length = sizeofMyMsg.toNat) :
    ∃ msgq', posQueueGet b msgq out POS_TIME_FOREVER = .ok (msgq', m.toBytes, .ok) ∧
      Holds msgq' items := by
  obtain ⟨q, hq, hitems⟩ := h
  obtain ⟨msgq', hget, hq'⟩ := hq.get (b := b) hout hitems POS_TIME_FOREVER
  refine ⟨msgq', hget, _, hq', ?_⟩
  rw [BoundedFifo.pop_items, hitems]
  rfl

theorem Holds.get_waits (h : Holds msgq []) :
    posQueueGet b msgq out POS_TIME_FOREVER = .error .blocked := by
  obtain ⟨q, hq, hitems⟩ := h
  exact hq.get_waits hitems (by decide)

/-- What is got passes the check. -/
theorem testGetVerify_toBytes (m : MyMsg) : testGetVerify m.toBytes m = true := by
  simp [testGetVerify, MyMsg.ofBytes_toBytes]

/-! ## Where the program is -/

/-- What the queues of the tasks store, and where the tasks are. -/
structure Stands (s : State) (items1 items2 : List MyMsg) (pc1 : Pc1) (pc2 : Pc2) : Prop where
  task1Queue : Holds s.task1Queue items1
  task2Queue : Holds s.task2Queue items2
  rx1 : s.task1MsgRx.length = sizeofMyMsg.toNat
  rx2 : s.task2MsgRx.length = sizeofMyMsg.toNat
  pc1 : s.pc1 = pc1
  pc2 : s.pc2 = pc2
  running : s.exited = none

inductive Place where
  | unitInit
  | unitPut
  | unitGet
  | unitPutAgain
  | rounds (r : Round TEST_ITERATIONS)

def Place.next : Place → Option Place
  | unitInit => some unitPut
  | unitPut => some unitGet
  | unitGet => some unitPutAgain
  | unitPutAgain => some (rounds (.start 0))
  | rounds r => r.next.map rounds

/-- How many steps are left. -/
def Place.left : Place → ℕ
  | unitInit => 404
  | unitPut => 403
  | unitGet => 402
  | unitPutAgain => 401
  | rounds r => r.left

theorem Place.left_next {x x' : Place} (h : x.next = some x') : x'.left < x.left := by
  cases x with
  | rounds r =>
    obtain ⟨r', hnext, rfl⟩ := Option.map_eq_some_iff.mp h
    exact Round.left_next hnext
  | unitPutAgain =>
    cases h
    rw [left, left, Round.left_start]
    decide
  | _ =>
    cases h
    decide

/-- One task has a call to make; the other one waits for what that call, or a later one, is
about to bring. -/
def At (b : Build) (heap : Allocator) : Place → State → Prop
  | .unitInit, s => Stands s [] [] .unitInit (.get 0) ∧ s.queue = zeroedQueue ∧
      testQueueInit b heap zeroedQueue = .ok (some s.task1Queue)
  | .unitPut, s => Stands s [] [] .unitPut (.get 0) ∧ Holds s.queue []
  | .unitGet, s => Stands s [] [] .unitGet (.get 0) ∧ Holds s.queue [task1MsgsSrc 0]
  | .unitPutAgain, s => Stands s [] [] .unitPutAgain (.get 0) ∧ Holds s.queue []
  | .rounds (.call i), s => Stands s [] [] (.put i) (.get i)
  | .rounds (.called i), s =>
      Stands s [] [task2MsgsSrc (i % TEST_MSGS_COUNT)] (.get i) (.get i)
  | .rounds (.answer i), s => Stands s [] [] (.get i) (.put i)
  | .rounds (.answered i), s =>
      Stands s [task1MsgsSrc (i % TEST_MSGS_COUNT)] [] (.get i) (.get (i + 1))
  | .rounds .finished, s => s.exited = some .pass

variable {s : State} {items1 items2 : List MyMsg} {pc1 : Pc1} {pc2 : Pc2} {i : ℕ}

theorem Stands.task1_waits (h : Stands s [] items2 (.get i) pc2) :
    task1Run b heap s = .error .blocked := by
  simp [task1Run, h.pc1, h.task1Queue.get_waits, bind, Except.bind]

theorem Stands.task2_waits (h : Stands s items1 [] pc1 (.get i)) :
    task2Run b s = .error .blocked := by
  simp [task2Run, h.pc2, h.task2Queue.get_waits, bind, Except.bind]

/-- **The tasks take turns.** -/
theorem queueTest_turns :
    (queueTest b heap).TakesTurns (At b heap) .unitInit Place.next where
  init s h := by
    obtain ⟨hqueue, h1, h2, hrx1, hrx2, hpc1, hpc2, hrunning⟩ := h
    exact ⟨⟨holds_of_testQueueInit h1, holds_of_testQueueInit h2, hrx1, hrx2, hpc1, hpc2,
      hrunning⟩, hqueue, h1⟩
  turn x x' s hat hnext := by
    match x, hat, hnext with
    -- the first task tries its own queue, and the second one waits all the while
    | .unitInit, ⟨h, hqueue, hinit⟩, rfl =>
      refine ⟨h.running, .task1, { s with queue := s.task1Queue, pc1 := .unitPut }, ?_, ?_,
        h.task2_waits⟩
      · simp [queueTest, task1Run, h.pc1, hqueue, hinit, bind, Except.bind, pure, Except.pure]
      · exact ⟨⟨h.task1Queue, h.task2Queue, h.rx1, h.rx2, rfl, h.pc2, h.running⟩, h.task1Queue⟩
    | .unitPut, ⟨h, hqueue⟩, rfl =>
      obtain ⟨q, signal, hput, hq⟩ := hqueue.put (b := b) (by decide) (task1MsgsSrc 0)
      refine ⟨h.running, .task1, { s with queue := q, pc1 := .unitGet }, ?_, ?_, h.task2_waits⟩
      · simp [queueTest, task1Run, h.pc1, hput, bind, Except.bind, pure, Except.pure]
      · exact ⟨⟨h.task1Queue, h.task2Queue, h.rx1, h.rx2, rfl, h.pc2, h.running⟩, hq⟩
    | .unitGet, ⟨h, hqueue⟩, rfl =>
      obtain ⟨q, hget, hq⟩ := hqueue.get (b := b) h.rx1
      refine ⟨h.running, .task1, { s with
        queue := q, task1MsgRx := (task1MsgsSrc 0).toBytes, pc1 := .unitPutAgain }, ?_, ?_,
        h.task2_waits⟩
      · simp [queueTest, task1Run, h.pc1, hget, verifyOrQuit, testGetVerify_toBytes, bind,
          Except.bind, pure, Except.pure]
      · exact ⟨⟨h.task1Queue, h.task2Queue, MyMsg.length_toBytes _, h.rx2, rfl, h.pc2,
          h.running⟩, hq⟩
    | .unitPutAgain, ⟨h, hqueue⟩, rfl =>
      obtain ⟨q, signal, hput, -⟩ := hqueue.put (b := b) (by decide) (task1MsgsSrc 0)
      refine ⟨h.running, .task1, { s with queue := q, pc1 := .put 0 }, ?_, ?_, h.task2_waits⟩
      · simp [queueTest, task1Run, h.pc1, hput, bind, Except.bind, pure, Except.pure]
      · exact ⟨h.task1Queue, h.task2Queue, h.rx1, h.rx2, rfl, h.pc2, h.running⟩
    -- a round: the message goes to the second task, and the answer comes back
    | .rounds (.call i), h, rfl =>
      obtain ⟨q, signal, hput, hq⟩ :=
        h.task2Queue.put (b := b) (by decide) (task2MsgsSrc (i % TEST_MSGS_COUNT))
      refine ⟨h.running, .task1, { s with task2Queue := q, pc1 := .get i }, ?_, ?_,
        h.task2_waits⟩
      · simp [queueTest, task1Run, h.pc1, hput, verifyOrQuit, bind, Except.bind, pure,
          Except.pure]
      · exact ⟨h.task1Queue, hq, h.rx1, h.rx2, rfl, h.pc2, h.running⟩
    | .rounds (.called i), h, rfl =>
      obtain ⟨q, hget, hq⟩ := h.task2Queue.get (b := b) h.rx2
      refine ⟨h.running, .task2, { s with
        task2Queue := q, task2MsgRx := (task2MsgsSrc (i % TEST_MSGS_COUNT)).toBytes
        pc2 := .put i }, ?_, ?_, h.task1_waits⟩
      · simp [queueTest, task2Run, h.pc2, hget, verifyOrQuit, testGetVerify_toBytes, bind,
          Except.bind, pure, Except.pure]
      · exact ⟨h.task1Queue, hq, h.rx1, MyMsg.length_toBytes _, h.pc1, rfl, h.running⟩
    | .rounds (.answer i), h, rfl =>
      obtain ⟨q, signal, hput, hq⟩ :=
        h.task1Queue.put (b := b) (by decide) (task1MsgsSrc (i % TEST_MSGS_COUNT))
      refine ⟨h.running, .task2, { s with task1Queue := q, pc2 := .get (i + 1) }, ?_, ?_,
        h.task1_waits⟩
      · simp [queueTest, task2Run, h.pc2, hput, verifyOrQuit, bind, Except.bind, pure,
          Except.pure]
      · exact ⟨hq, h.task2Queue, h.rx1, h.rx2, h.pc1, rfl, h.running⟩
    | .rounds (.answered i), h, rfl =>
      obtain ⟨q, hget, hq⟩ := h.task1Queue.get (b := b) h.rx1
      unfold Round.start
      by_cases hmore : (i : ℕ) + 1 < TEST_ITERATIONS
      · rw [dif_pos hmore]
        refine ⟨h.running, .task1, { s with
          task1Queue := q, task1MsgRx := (task1MsgsSrc (i % TEST_MSGS_COUNT)).toBytes
          pc1 := .put (i + 1) }, ?_, ?_, h.task2_waits⟩
        · simp [queueTest, task1Run, h.pc1, hget, verifyOrQuit, testGetVerify_toBytes, hmore, bind,
            Except.bind, pure, Except.pure]
        · exact ⟨hq, h.task2Queue, MyMsg.length_toBytes _, h.rx2, rfl, h.pc2, h.running⟩
      · rw [dif_neg hmore]
        refine ⟨h.running, .task1, { s with
          task1Queue := q, task1MsgRx := (task1MsgsSrc (i % TEST_MSGS_COUNT)).toBytes
          exited := some .pass }, ?_, rfl, h.task2_waits⟩
        simp [queueTest, task1Run, h.pc1, hget, verifyOrQuit, testGetVerify_toBytes, hmore, bind,
          Except.bind, pure, Except.pure]
  done x s hat hnext := by
    match x, hat, hnext with
    | .rounds .finished, h, _ => exact h

/-- **The queue test passes** in every schedule, after 404 calls of the port at most, in every
build and on every heap on which `main` can make the queues; there are such heaps. -/
theorem queueTest_passes (b : Build) :
    (∃ s, (queueTest b .zeroed).init s) ∧ ∀ heap, (queueTest b heap).Passes 404 := by
  refine ⟨?_, fun heap =>
    TestProgram.passes_of_turns queueTest_turns Place.left fun _ _ => Place.left_next⟩
  let new : PosQueue :=
    { q := some { buffer := List.replicate 384 0, itemSize := 12, itemCount := 32, readIndex := 0
                  writeIndex := 0 }, sigCb := none, sigArg := 0 }
  have hnew : testQueueInit b .zeroed zeroedQueue = .ok (some new) := by
    cases b with
    | mk ndebug => cases ndebug <;> rfl
  exact ⟨⟨zeroedQueue, new, new, List.replicate 12 0, List.replicate 12 0, .unitInit, .get 0, none⟩,
    rfl, hnew, hnew, rfl, rfl, rfl, rfl, rfl⟩

end Poski.Programs.QueueTest
