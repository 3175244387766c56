import Broker.Subscriber.Invariant

/-!
# Subscriber/Deadlock — two ways both threads block for good

    consumer: wait() { guard{mtx_}; if (!ready_) fx_.await_one(); }        ← holds mtx_, blocked
    producer: on_producer_wakeup() { guard{mtx_}; … fx_.fire(); … }        ← blocked on mtx_

    consumer: pull's re-check { guard{mtx_}; … buf_->available() … }        ← holds mtx_, blocked
    producer: push { lock buffer; …; on_producer_wakeup() { guard{mtx_} } } ← holds buffer, blocked

`wait` and `wait_until` keep their `guard_type guard{mtx_}` while they block in `fx_.await_one`.
Only `on_producer_wakeup` fires the flare, and it must take `mtx_` first.  So a consumer that waits
can never be woken (`await_blocked`); in `get` nothing else ends the wait, and once the producer
pushes, both threads are blocked for good (`stuck_of_await`).  `get_deadlock` reaches that state:
`get(1)` on an empty queue, then one push.  In `do_get`, only the timeout ends the wait.

The two locks are also taken in opposite orders.  `pull`'s re-check holds `mtx_` and then calls
`available()`, which takes the buffer's lock; a push into an empty buffer holds the buffer's lock
and then calls `on_producer_wakeup`, which takes `mtx_`.  When the two meet, neither thread moves
again (`stuck_of_recheck`), even inside `poll()`, which never waits on the flare.
-/

namespace Broker

namespace Subscriber

variable {α : Type} {s : State α}

/-- **A waiting consumer is never woken.**  In every reachable state where the consumer blocks in
`fx_.await_one` it holds `mtx_` and the flare is out, so neither the wakeup's `lock mtx_` nor the
return from `await_one` is enabled. -/
theorem await_blocked (h : Reachable s) (hp : s.pos = .await) :
    s.mtx = some .consumer ∧ s.fired = false ∧ step s .lockWakeup = none ∧
      step s .awake = none := by
  obtain ⟨hm, hf⟩ := (Inv.reachable h).await hp
  exact ⟨hm, hf, by simp [step, hm], by simp [step, hf]⟩

/-- The consumer blocked inside `get(1)` on an empty queue of capacity 1; its first pull handed out
nothing and nulled `buf_`. -/
def waiting : State Nat :=
  { State.init 1 with bufPtr := false, call := .get 1, mtx := some .consumer, pos := .await }

theorem reachable_waiting : Reachable waiting :=
  (Reachable.init 1).run [.start (.get 1), .finishPull, .loop, .lockWait] rfl

/-- `await_blocked` at `waiting`. -/
theorem await_blocked_waiting :
    Reachable waiting ∧ waiting.pos = .await ∧
      (waiting.mtx = some .consumer ∧ waiting.fired = false ∧ step waiting .lockWakeup = none ∧
        step waiting .awake = none) :=
  ⟨reachable_waiting, rfl, await_blocked reachable_waiting rfl⟩

/-- **Deadlock in `wait()`.**  Every reachable state where the consumer waits inside `get` while
the producer is entering `on_producer_wakeup` enables no step at all: the consumer waits for a
fire that only the producer can make, and the producer waits for the `mtx_` the consumer holds. -/
theorem stuck_of_await (h : Reachable s) (hp : s.pos = .await) (hc : s.call = .get n)
    (hw : s.prod = .wakeup) (a : Action α) : step s a = none := by
  obtain ⟨hm, hf⟩ := (Inv.reachable h).await hp
  cases a <;> simp [step, hp, hc, hw, hm, hf]

/-- **`get(1)` on an empty queue, then one push, deadlocks**: the consumer's pull hands out
nothing, and it blocks in `wait()` holding `mtx_`; the push finds the buffer empty and enters
`on_producer_wakeup`, which waits for `mtx_`.  No step of either thread is enabled. -/
theorem get_deadlock :
    ∃ s, Subscriber.run (State.init 1 : State Nat) [.start (.get 1), .finishPull, .loop,
        .lockWait, .push [7]] = some s ∧
      s.pos = .await ∧ s.mtx = some .consumer ∧ s.prod = .wakeup ∧ s.buffer = [7] ∧
      ∀ a, step s a = none :=
  have hr := (Reachable.init 1).run [.start (.get 1), .finishPull, .loop, .lockWait, .push [7]] rfl
  ⟨_, rfl, rfl, rfl, rfl, rfl, stuck_of_await hr rfl rfl rfl⟩

/-- **Deadlock between the re-check and a wakeup.**  Every reachable state where the consumer
holds `mtx_` in `pull`'s re-check while the producer, holding the buffer's lock, is entering
`on_producer_wakeup` enables no step at all: the re-check's `available()` waits for the buffer's
lock, and the wakeup waits for `mtx_`. -/
theorem stuck_of_recheck (h : Reachable s) (hp : s.pos = .recheckHeld) (hw : s.prod = .wakeup)
    (a : Action α) : step s a = none := by
  have hm := (Inv.reachable h).mtx_consumer.2 (.inl hp)
  cases a <;> simp [step, hp, hw, hm]

/-- A `poll()` that took the message `1` and holds `mtx_` in the re-check, while the push of `2`
into the emptied buffer holds the buffer's lock in `on_producer_wakeup`. -/
def recheckBlocked : State Nat :=
  { State.init 2 with
    buffer := [2], pushed := [1, 2], mtx := some .consumer, ready := true, fired := true,
    prod := .wakeup, call := .poll, batch := [1], pos := .recheckHeld, handed := 1 }

/-- `stuck_of_recheck` at `recheckBlocked`, reached from a fresh subscriber: `poll()` never
returns. -/
theorem stuck_of_recheck_poll :
    Reachable recheckBlocked ∧ recheckBlocked.call = .poll ∧ recheckBlocked.pos = .recheckHeld ∧
      recheckBlocked.prod = .wakeup ∧ ∀ a, step recheckBlocked a = none :=
  have h : Reachable recheckBlocked := (Reachable.init 2).run [.push [1], .lockWakeup, .wakeup,
    .start .poll, .take 1, .finishPull, .testAvailable, .lockRecheck, .push [2]] rfl
  ⟨h, rfl, rfl, rfl, stuck_of_recheck h rfl rfl⟩

end Subscriber

end Broker
