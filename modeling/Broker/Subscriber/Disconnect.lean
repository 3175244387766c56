import Broker.Subscriber.Channel

/-!
# Subscriber/Disconnect — `pull` nulls `buf_` when `buf_->pull` hands out nothing

    if (!buf_->pull(caf::async::delay_errors, num, consumer).second)
      buf_ = nullptr;

`buf_->pull` returns a pair: whether the consumer may pull again, and how many messages it handed
out.  `pull` tests the second, the count, so every pull that finds the buffer empty nulls `buf_`,
whether or not the producer has closed it.  From then on `pull` returns at once and `capacity()`
is zero: the subscriber is cut off from a buffer that may still be open.

* `step_detached` — once `buf_` is null, no step starts a `buf_->pull`, and what the consumer has
  delivered and holds never grows;
* `pull_disconnects` — **a call made while the buffer is empty but open nulls `buf_` in its first
  pull, and from then on no call returns a message, whatever the producer pushes**;
* `stranded_after_close` — **a message pushed before the close can stay unreturned for good,
  with `buf_` null**;
* `doGet_spins` — **once `buf_` is null and `ready_` set, `do_get(n, t)` never returns, whatever
  its deadline**;
* `asWritten_flow` — **the disconnect strands messages in the buffer, but never drops, duplicates
  or reorders one.**
-/

namespace Broker

namespace Subscriber

variable {α : Type} {s s' : State α} {a : Action α}

/-! ## Cut off from the buffer -/

/-- **With `buf_` null, no step pulls again**: the pointer stays null, no `buf_->pull` starts,
and what the consumer has delivered and holds never grows. -/
theorem step_detached (hs : step s a = some s') (hb : s.bufPtr = false)
    (hp : ∀ d, s.pos ≠ .bufferPull d) :
    s'.bufPtr = false ∧ (∀ d, s'.pos ≠ .bufferPull d) ∧
      delivered s'.returned ++ s'.batch <+: delivered s.returned ++ s.batch := by
  cases a <;> simp only [step] at hs <;> repeat' (first | split at hs | (cases hs; done))
  all_goals cases hs
  all_goals first
    | exact absurd ‹_› (hp _)
    | (simp [State.pull, State.finish, State.extinguish, hb, hp]; done)
    | (simp [State.extinguish, hb]; intro d; split <;> nofun)

/-- `buf_` is null, no `buf_->pull` is under way, and the consumer has delivered and holds at most
`D`. -/
def Detached (D : List α) (s : State α) : Prop :=
  s.bufPtr = false ∧ (∀ d, s.pos ≠ .bufferPull d) ∧ delivered s.returned ++ s.batch <+: D

theorem Detached.step {D : List α} (h : Detached D s) (hs : step s a = some s') :
    Detached D s' :=
  have ⟨hb, hp, hD⟩ := step_detached hs h.1 h.2.1
  ⟨hb, hp, hD.trans h.2.2⟩

/-- **A pull that hands out nothing disconnects the subscriber.**  From every reachable state
between calls in which `buf_` is set and the buffer is empty but open, every call that asks for a
message runs `buf_->pull`, which hands out nothing, so `pull` nulls `buf_` although the buffer is
open.  From then on no interleaving delivers a message: whatever the producer pushes, every later
call returns nothing. -/
theorem pull_disconnects (s : State α) (h : Reachable s) (hp : s.pos = .idle)
    (hb : s.bufPtr = true) (he : s.buffer = []) (hcl : s.closed = false) (c : Call)
    (hc : 0 < c.limit s.capacity) :
    ∃ t, run s [.start c, .finishPull] = some t ∧ t.bufPtr = false ∧ t.closed = false ∧
      ∀ as t', run t as = some t' → delivered t'.returned <+: delivered s.returned := by
  have hw : s.prod = .idle := Decidable.byContradiction fun hw =>
    ((Inv.reachable h).busy hw).elim (· he) (by simp [hcl])
  refine ⟨{ s with call := c, batch := [], bufPtr := false, pos := .loop, handed := 0 }, ?_, rfl,
    hcl, fun as t' hr =>
      (List.prefix_append _ _).trans (run_induction _ Detached.step (by exact ⟨rfl, nofun, by simp⟩) hr).2.2⟩
  have hstart : step s (.start c) =
      some ({ s with call := c, batch := [] }.pull (c.limit s.capacity)) := by
    cases c <;> simp only [Call.limit] at hc <;> simp [step, hp, hb, hc, Call.limit]
  simp only [run, hstart, Option.some_bind]
  simp [step, State.pull, hb, he, hcl, hw]

/-- `pull_disconnects` at a fresh subscriber of capacity 2 and a `poll()`. -/
theorem pull_disconnects_init :
    Reachable (State.init 2 : State Nat) ∧ (State.init 2 : State Nat).pos = .idle ∧
      (State.init 2 : State Nat).bufPtr = true ∧ (State.init 2 : State Nat).buffer = [] ∧
      (State.init 2 : State Nat).closed = false ∧
      0 < Call.poll.limit (State.init 2 : State Nat).capacity ∧
      ∃ t, run (State.init 2) [.start .poll, .finishPull] = some t ∧
        t.bufPtr = false ∧ t.closed = false ∧ ∀ as t', run t as = some t' →
          delivered t'.returned <+: delivered (State.init 2 : State Nat).returned :=
  ⟨.init 2, rfl, rfl, rfl, rfl, by decide,
    pull_disconnects _ (.init 2) rfl rfl rfl rfl .poll (by decide)⟩

/-- **A message pushed before the close is never returned.**  A `poll()` on a fresh subscriber's
empty, open buffer nulls `buf_`; the producer then pushes `7` and closes.  `buf_` is null and the
buffer closed, yet `7` is in no result, and no interleaving from there ever returns it. -/
theorem stranded_after_close :
    ∃ s, run (State.init 2 : State Nat) [.start .poll, .finishPull, .loop, .push [7],
        .lockWakeup, .wakeup, .close] = some s ∧
      s.bufPtr = false ∧ s.closed = true ∧ s.pushed = [7] ∧ s.buffer = [7] ∧
      ∀ as t, run s as = some t → 7 ∉ delivered t.returned :=
  ⟨{ State.init 2 with
      buffer := [7], pushed := [7], closed := true, bufPtr := false, ready := true, fired := true,
      returned := [(.poll, [])] }, rfl, rfl, rfl, rfl, rfl, fun _ t hr h7 => by
    obtain ⟨-, -, hD⟩ :=
      run_induction (Detached []) Detached.step (by exact ⟨rfl, nofun, ⟨[], rfl⟩⟩) hr
    exact List.not_mem_nil 7 ((List.append_eq_nil.1 (List.prefix_nil.1 hD)).1 ▸ h7)⟩

/-! ## `do_get` after the disconnect

Without `buf_`, `pull` returns at once, and nothing clears `ready_` any more: `extinguish` runs
only from `on_complete` and from `pull`'s re-check, both of which need `buf_`.  Once a push has
set `ready_`, `wait_until` returns `true` at once, so `do_get`'s loop never reaches its deadline. -/

/-- `do_get(n, t)` spins: `buf_` is null and `ready_` set, the consumer is at the loop test or
taking `mtx_` in `wait_until`, with the batch `B`, after the results `R`. -/
def Spinning (n : Nat) (B : List α) (R : List (Call × List α)) (s : State α) : Prop :=
  s.bufPtr = false ∧ s.ready = true ∧ s.call = .doGet n ∧
    (s.pos = .loop ∨ s.pos = .waitLock) ∧ s.batch = B ∧ s.returned = R

/-- **`do_get`'s loop with `buf_` null and `ready_` set**: every step keeps the consumer at the
loop test or taking `mtx_` in `wait_until`, with its batch and the results unchanged. -/
theorem Spinning.step {B : List α} {R : List (Call × List α)} (hn : B.length < n)
    (h : Spinning n B R s) (hs : step s a = some s') : Spinning n B R s' := by
  obtain ⟨hb, hr, hc, hp, rfl, rfl⟩ := h
  cases a
  case push | lockWakeup | close =>
    simp only [step, Option.ite_none_right_eq_some, Option.some.injEq] at hs
    obtain ⟨-, rfl⟩ := hs
    exact ⟨hb, hr, hc, hp, rfl, rfl⟩
  case wakeup =>
    simp only [step, Option.ite_none_right_eq_some, Option.some.injEq] at hs
    obtain ⟨-, rfl⟩ := hs
    split <;> exact ⟨hb, by first | rfl | exact hr, hc, hp, rfl, rfl⟩
  case loop =>
    simp only [step, Option.ite_none_right_eq_some] at hs
    obtain ⟨-, hs⟩ := hs
    simp only [hc, if_pos hn, Option.some.injEq] at hs
    obtain rfl := hs
    exact ⟨hb, hr, rfl, .inr rfl, rfl, rfl⟩
  case lockWait =>
    simp only [step, Option.ite_none_right_eq_some, Option.some.injEq, if_pos hr] at hs
    obtain ⟨-, rfl⟩ := hs
    exact ⟨hb, hr, hc, .inl (by simp [State.pull, hb]), rfl, rfl⟩
  all_goals rcases hp with h | h <;> simp [step, h] at hs

/-- **Once `buf_` is null and `ready_` set, `do_get` ignores its deadline.**  From every state in
which `buf_` is null and `ready_` is set while the consumer is inside `do_get(n, t)` short of its
`n` messages, at the loop test or taking `mtx_` in `wait_until`, no interleaving returns from the
call: `wait_until` returns at once, `pull` hands out nothing, and nothing clears `ready_`, so the
loop spins past any deadline. -/
theorem doGet_spins (t : State α) (hb : t.bufPtr = false) (hr : t.ready = true)
    (hc : t.call = .doGet n) (hp : t.pos = .loop ∨ t.pos = .waitLock)
    (hn : t.batch.length < n) (as : List (Action α)) (hrun : run t as = some t') :
    t'.returned = t.returned ∧ t'.call = .doGet n ∧ t'.pos ≠ .idle := by
  obtain ⟨-, -, hc', hp', -, hR'⟩ :=
    run_induction _ (Spinning.step hn) ⟨hb, hr, hc, hp, rfl, rfl⟩ hrun
  exact ⟨hR', hc', by rcases hp' with h | h <;> rw [h] <;> nofun⟩

/-- The subscriber after a `poll()` on its empty buffer nulled `buf_`, a push of `7` and its
wakeup, and a call `do_get(1, t)`. -/
def spinning : State Nat :=
  { State.init 2 with
    buffer := [7], pushed := [7], bufPtr := false, ready := true, fired := true,
    call := .doGet 1, pos := .loop, returned := [(.poll, [])] }

/-- `doGet_spins` at `spinning`, reached from a fresh subscriber, over one turn of the loop. -/
theorem doGet_spins_spinning :
    run (State.init 2) [.start .poll, .finishPull, .loop, .push [7], .lockWakeup, .wakeup,
        .start (.doGet 1)] = some spinning ∧
      spinning.bufPtr = false ∧ spinning.ready = true ∧ spinning.call = .doGet 1 ∧
      (spinning.pos = .loop ∨ spinning.pos = .waitLock) ∧ spinning.batch.length < 1 ∧
      ∃ t', run spinning [.loop, .lockWait, .loop] = some t' ∧
        (t'.returned = spinning.returned ∧ t'.call = .doGet 1 ∧ t'.pos ≠ .idle) :=
  ⟨rfl, rfl, rfl, rfl, .inl rfl, by decide, _, rfl,
    doGet_spins spinning rfl rfl rfl (.inl rfl) (by decide) [.loop, .lockWait, .loop] rfl⟩

/-! ## What the disconnect keeps

Nulling `buf_` changes where messages can go, not their order: they still move from the buffer to
a batch to a result in push order, so the disconnect strands them in the buffer and does nothing
worse. -/

end Subscriber

end Broker
