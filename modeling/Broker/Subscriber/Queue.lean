import Mathlib.Data.List.Basic

/-!
# Subscriber/Queue — `subscriber_queue` and its two threads, as a step function

    producer:  push / close { lock buffer; append; on_producer_wakeup { lock mtx_; fire; … } }
    consumer:  get / do_get / poll ──▸ pull { n = buf_->pull(…).second; n == 0 ? buf_ = nullptr
                                              : available() == 0 ? { lock mtx_; re-check } }
                                   ──▸ wait / wait_until { lock mtx_; ready_ ? : await flare }

A `subscriber` reads `data_message`s from a CAF bounded buffer.  The producer (Broker's core actor)
pushes into the buffer and, when a push or a close finds it empty, calls the queue's
`on_producer_wakeup`, which takes `mtx_` and fires the flare.  The consumer thread runs
`subscriber::get`, `do_get` and `poll`; each pulls from the buffer, disarms the flare under `mtx_`
when it drained the buffer, and blocks on the flare while it lacks messages.

Each party has a program counter; every `Action` is one atomic step of one party, enabled by its
guards (`step` returns `none` otherwise).  `mtx_` records its owner, so a step that would acquire it
is enabled only while it is free.  `pushed` and `returned` are ghost state: every message ever
pushed, and every call's result in call order.

Two facts about the CAF buffer shape the steps.  The buffer has a lock of its own: a chunk of
`buf_->pull`, the end of `buf_->pull` and `available()` each take it, and a push or a close holds
it while it calls `on_producer_wakeup`.  So the consumer's buffer operations are enabled only while
the producer is outside `on_producer_wakeup` (`prod = .idle`).  And `buf_->pull` returns a pair,
whether the consumer may pull again and how many messages it handed out; `pull` tests the second,
the count (`handed`), and nulls `buf_` whenever it is zero, on an open buffer too.
-/

namespace Broker

namespace Subscriber

/-- The threads that take `mtx_`. -/
inductive Party where
  | producer
  | consumer
  deriving DecidableEq, Repr

/-- The producer's program counter. -/
inductive Producer where
  /-- Outside the queue's code: free to push or close. -/
  | idle
  /-- In `on_producer_wakeup`, called by a push or a close that holds the buffer's lock: acquiring
  `mtx_`. -/
  | wakeup
  /-- In `on_producer_wakeup`, holding the buffer's lock and `mtx_`. -/
  | wakeupHeld
  deriving DecidableEq, Repr

/-- The consumer call in progress. -/
inductive Call where
  /-- `subscriber::get(num)`; `get()` is `get(1)`. -/
  | get (num : Nat)
  /-- `subscriber::do_get(num, abs_timeout)`. -/
  | doGet (num : Nat)
  /-- `subscriber::poll()`. -/
  | poll
  deriving DecidableEq, Repr

/-- The consumer's program counter. -/
inductive Pos where
  /-- No call in progress. -/
  | idle
  /-- In `buf_->pull`, which still hands out up to `demand` messages. -/
  | bufferPull (demand : Nat)
  /-- `buf_->pull` found the buffer closed and empty and calls `on_complete`, i.e. `extinguish`. -/
  | complete
  /-- `buf_->pull` handed out messages: the unlocked test `buf_->available() == 0`. -/
  | available
  /-- The re-check's `guard_type guard{mtx_}`. -/
  | recheckLock
  /-- The re-check holds `mtx_` and saw `ready_`: the locked test `buf_->available() == 0`. -/
  | recheckHeld
  /-- Back in `get`, `do_get` or `poll` after a pull: the loop condition, or the return. -/
  | loop
  /-- `wait()` or `wait_until()`: `guard_type guard{mtx_}`. -/
  | waitLock
  /-- Holding `mtx_`, blocked in `fx_.await_one()`. -/
  | await
  deriving DecidableEq, Repr

/-- The queue, the buffer it reads, and both threads. -/
structure State (α : Type) where
  /-- The bounded buffer's messages, oldest first. -/
  buffer : List α
  /-- `buf_->capacity()`. -/
  capacity : Nat
  /-- The producer has closed the buffer. -/
  closed : Bool
  /-- `buf_ != nullptr`. -/
  bufPtr : Bool
  /-- The owner of `mtx_`. -/
  mtx : Option Party
  /-- `ready_`. -/
  ready : Bool
  /-- The flare `fx_` is fired. -/
  fired : Bool
  prod : Producer
  call : Call
  /-- The call's result vector `buf`. -/
  batch : List α
  pos : Pos
  /-- Every message pushed so far. -/
  pushed : List α
  /-- Every finished call with its result, in call order. -/
  returned : List (Call × List α)
  /-- The messages the `buf_->pull` under way has handed to `on_next`. -/
  handed : Nat
  deriving DecidableEq, Repr

/-- One atomic step of the producer or of the consumer. -/
inductive Action (α : Type) where
  /-- `bounded_buffer::push(items)`, within the capacity. -/
  | push (items : List α)
  /-- `on_producer_wakeup` takes `mtx_`. -/
  | lockWakeup
  /-- `if (!ready_) { fx_.fire(); ready_ = true; }`, then `mtx_` and the buffer's lock are
  released. -/
  | wakeup
  /-- The producer closes the buffer. -/
  | close
  /-- The consumer calls `c`. -/
  | start (c : Call)
  /-- `buf_->pull` hands a chunk of `n` messages to `on_next`. -/
  | take (n : Nat)
  /-- `buf_->pull` ends its loop; then `pull` tests the count it handed out. -/
  | finishPull
  /-- `on_complete` runs `extinguish` under `mtx_`; then `pull` tests the count. -/
  | complete
  | testAvailable
  | lockRecheck
  | recheck
  | loop
  | lockWait
  /-- The flare is fired: `await_one` returns and `mtx_` is released. -/
  | awake
  /-- `await_one(abs_timeout)` times out in `do_get`: `wait_until` returns false. -/
  | timeout
  deriving DecidableEq, Repr

/-- How many messages the call asks for: `num`, or `poll`'s `max_size`, the capacity. -/
def Call.limit (capacity : Nat) : Call → Nat
  | .get n | .doGet n => n
  | .poll => capacity

namespace State

variable {α : Type} (s : State α)

/-- The subscriber starts with an empty open buffer, the flare disarmed and no call. -/
def init (capacity : Nat) : State α :=
  { buffer := [], capacity := capacity, closed := false, bufPtr := true, mtx := none,
    ready := false, fired := false, prod := .idle, call := .poll, batch := [], pos := .idle,
    pushed := [], returned := [], handed := 0 }

/-- `q->pull(buf, num)` is entered: `if (buf_)` it calls `buf_->pull`, else it returns. -/
def pull (num : Nat) : State α :=
  { s with pos := if s.bufPtr then .bufferPull num else .loop, handed := 0 }

/-- The rest of `pull` once `buf_->pull` has returned: `buf_ = nullptr` if it handed out nothing,
else the test `buf_->available() == 0`. -/
def afterPull : State α :=
  if s.handed = 0 then { s with bufPtr := false, pos := .loop } else { s with pos := .available }

/-- `afterPull` changes only `buf_` and the program counter. -/
@[simp] theorem afterPull_eq : s.afterPull =
    { s with bufPtr := s.bufPtr && s.handed != 0, pos := if s.handed = 0 then .loop else .available } := by
  unfold afterPull; split <;> simp [*]

/-- `return buf`: the call ends with its result. -/
def finish : State α :=
  { s with pos := .idle, batch := [], returned := s.returned ++ [(s.call, s.batch)] }

/-- The body of `extinguish` under `mtx_`: `if (ready_) { ready_ = false; fx_.extinguish(); }`, so
`ready_` ends false either way and the flare is put out only if `ready_` was set. -/
def extinguish : State α :=
  { s with ready := false, fired := if s.ready then false else s.fired }

end State

open State

variable {α : Type}

/-- **One step** of the producer or of the consumer, `none` where it is not enabled. -/
def step (s : State α) : Action α → Option (State α)
  | .push items =>
    if s.prod = .idle ∧ s.closed = false ∧ 0 < items.length ∧
        s.buffer.length + items.length ≤ s.capacity then
      some { s with buffer := s.buffer ++ items, pushed := s.pushed ++ items,
                    prod := if s.buffer.isEmpty then .wakeup else .idle }
    else none
  | .lockWakeup =>
    if s.prod = .wakeup ∧ s.mtx = none then
      some { s with prod := .wakeupHeld, mtx := some .producer }
    else none
  | .wakeup =>
    if s.prod = .wakeupHeld then
      some (if s.ready then { s with prod := .idle, mtx := none }
        else { s with prod := .idle, mtx := none, fired := true, ready := true })
    else none
  | .close =>
    if s.prod = .idle ∧ s.closed = false then
      some { s with closed := true, prod := if s.buffer.isEmpty then .wakeup else .idle }
    else none
  | .start c =>
    if s.pos = .idle then
      match c with
      | .get n | .doGet n => if 0 < n then some ({ s with call := c, batch := [] }.pull n) else none
      | .poll =>
        some (if s.bufPtr ∧ 0 < s.capacity then { s with call := c, batch := [] }.pull s.capacity
          else { s with call := c, batch := [] }.finish)
    else none
  | .take n =>
    match s.pos with
    | .bufferPull d =>
      if s.prod = .idle ∧ 0 < n ∧ n ≤ d ∧ n ≤ s.buffer.length then
        some { s with buffer := s.buffer.drop n, batch := s.batch ++ s.buffer.take n,
                      pos := .bufferPull (d - n), handed := s.handed + n }
      else none
    | _ => none
  | .finishPull =>
    match s.pos with
    | .bufferPull d =>
      if s.prod = .idle ∧ (s.buffer.isEmpty ∨ d = 0) then
        some (if s.closed && s.buffer.isEmpty then { s with pos := .complete } else s.afterPull)
      else none
    | _ => none
  | .complete =>
    if s.pos = .complete ∧ s.mtx = none then some s.extinguish.afterPull else none
  | .testAvailable =>
    if s.pos = .available ∧ s.prod = .idle then
      some { s with pos := if s.buffer.isEmpty then .recheckLock else .loop }
    else none
  | .lockRecheck =>
    if s.pos = .recheckLock ∧ s.mtx = none then
      some (if s.ready then { s with mtx := some .consumer, pos := .recheckHeld }
        else { s with pos := .loop })
    else none
  | .recheck =>
    if s.pos = .recheckHeld ∧ s.prod = .idle then
      some { (if s.buffer.isEmpty then s.extinguish else s) with mtx := none, pos := .loop }
    else none
  | .loop =>
    if s.pos = .loop then
      match s.call with
      | .get n | .doGet n =>
        some (if s.batch.length < n then { s with pos := .waitLock } else s.finish)
      | .poll => some s.finish
    else none
  | .lockWait =>
    if s.pos = .waitLock ∧ s.mtx = none then
      some (if s.ready then s.pull (s.call.limit s.capacity - s.batch.length)
        else { s with mtx := some .consumer, pos := .await })
    else none
  | .awake =>
    if s.pos = .await ∧ s.fired then
      some ({ s with mtx := none }.pull (s.call.limit s.capacity - s.batch.length))
    else none
  | .timeout =>
    match s.pos, s.call with
    | .await, .doGet _ => some { s with mtx := none }.finish
    | _, _ => none

/-- The states some interleaving of steps reaches from a fresh subscriber. -/
inductive Reachable : State α → Prop
  | init (capacity : Nat) : Reachable (init capacity)
  | step {s s' : State α} (a : Action α) : Reachable s → step s a = some s' → Reachable s'

/-- A sequence of steps, `none` as soon as one is not enabled. -/
def run (s : State α) : List (Action α) → Option (State α)
  | [] => some s
  | a :: as => (step s a).bind fun s' => run s' as

/-- No step changes the buffer's capacity. -/
theorem step_capacity {s s' : State α} {a : Action α} (hs : step s a = some s') :
    s'.capacity = s.capacity := by
  cases a <;> simp only [step] at hs <;> repeat' (first | split at hs | (cases hs; done))
  all_goals cases hs
  all_goals (try unfold State.afterPull); (try split) <;> rfl

/-- A property every step keeps holds after every run. -/
theorem run_induction {s' : State α} (P : State α → Prop) (hP : ∀ {t t' : State α}
    {a : Action α}, P t → step t a = some t' → P t') :
    ∀ {s : State α} {as : List (Action α)}, P s → run s as = some s' → P s'
  | _, [], hs, hr => Option.some_inj.1 hr ▸ hs
  | _, _ :: _, hs, hr =>
    have ⟨_, ht, hr⟩ := Option.bind_eq_some.1 hr
    run_induction P hP (hP hs ht) hr

theorem Reachable.run {s s' : State α} (hs : Reachable s) :
    ∀ as : List (Action α), Subscriber.run s as = some s' → Reachable s'
  | [], h => by cases h; exact hs
  | a :: as, h => by
    obtain ⟨t, ht, hrun⟩ := Option.bind_eq_some.1 h
    exact (hs.step a ht).run as hrun

end Subscriber

end Broker
