import Broker.Subscriber.Channel

/-!
# Subscriber/Calls — a `get(num)` the closed buffer cannot serve

    get(num):  while (buf.size() < num) { wait(); q->pull(buf, num - buf.size()); }

`get(num)` leaves its loop only with `num` messages.  Once the buffer is closed nothing more is
pushed, so a `get(num)` whose batch and buffer together hold fewer than `num` messages has no way
out: it never returns, in any interleaving.

* `step_inCall` — inside a call, a step keeps the call going or returns its batch;
* `get_never_returns` — **a `get(num)` on a closed queue that holds fewer than `num` messages for
  it never returns, in any interleaving.**
-/

namespace Broker

namespace Subscriber

variable {α : Type} {s s' : State α} {a : Action α}

/-- **The history only grows**: pushes and results are appended, and after the close nothing is
pushed. -/
theorem step_history (hs : step s a = some s') :
    s.pushed <+: s'.pushed ∧ s.returned <+: s'.returned ∧
      (s.closed = true → s'.closed = true ∧ s'.pushed = s.pushed) := by
  cases a with
  | push items =>
    simp only [step, Option.ite_none_right_eq_some, Option.some.injEq] at hs
    obtain ⟨⟨-, hc, -⟩, rfl⟩ := hs
    exact ⟨List.prefix_append _ _, List.prefix_refl _, fun h => absurd (h.symm.trans hc) nofun⟩
  | _ =>
    simp only [step] at hs
    repeat' (first | split at hs | (cases hs; done))
    all_goals cases hs; simp [State.finish, State.pull, State.extinguish]

theorem State.pull_pos_ne_idle (s : State α) (num : Nat) : (s.pull num).pos ≠ .idle := by
  unfold State.pull; split <;> nofun

theorem State.afterPull_pos_ne_idle (s : State α) : s.afterPull.pos ≠ .idle := by
  unfold State.afterPull; split <;> nofun

/-- **Inside a call, a step keeps the call going, or returns the batch.** -/
theorem step_inCall (hs : step s a = some s') (hp : s.pos ≠ .idle) :
    (s'.returned = s.returned ∧ s'.call = s.call ∧ s'.pos ≠ .idle) ∨
      s'.returned = s.returned ++ [(s.call, s.batch)] := by
  cases a <;> simp only [step] at hs <;> repeat' (first | split at hs | (cases hs; done))
  all_goals cases hs
  all_goals first
    | exact .inr rfl
    | exact absurd ‹s.pos = .idle› hp
    | exact .inl ⟨rfl, rfl, by first | exact hp | exact State.pull_pos_ne_idle _ _ | simp⟩
    | exact .inl ⟨by simp [State.extinguish], by simp [State.extinguish],
        State.afterPull_pos_ne_idle _⟩

/-- **Where a call `c`, begun after the results `R`, stands**: still running, or returned. -/
def InCall (c : Call) (R : List (Call × List α)) (s : State α) : Prop :=
  (s.returned = R ∧ s.call = c ∧ s.pos ≠ .idle) ∨ ∃ b, R ++ [(c, b)] <+: s.returned

theorem InCall.step {c : Call} {R : List (Call × List α)} (h : InCall c R s)
    (hs : step s a = some s') : InCall c R s' := by
  rcases h with ⟨hr, hc, hi⟩ | ⟨b, hb⟩
  · rcases step_inCall hs hi with ⟨hr', hc', hi'⟩ | hr'
    · exact .inl ⟨hr'.trans hr, hc'.trans hc, hi'⟩
    · exact .inr ⟨s.batch, [], by rw [hr', hr, hc, List.append_nil]⟩
  · exact .inr ⟨b, hb.trans (step_history hs).2.1⟩

/-- **`get(num)` on a closed queue that cannot serve it never returns.**  From every reachable
state inside a `get(num)` whose batch and buffer hold fewer than `num` messages once the buffer is
closed, no interleaving returns from the call: nothing can be pushed any more, and the loop
`while (buf.size() < num)` has no other exit. -/
theorem get_never_returns (h : Reachable s) (hc : s.call = .get n) (hp : s.pos ≠ .idle)
    (hcl : s.closed = true) (hn : s.batch.length + s.buffer.length < n) (as : List (Action α))
    (hr : run s as = some s') : s'.returned = s.returned ∧ s'.pos ≠ .idle := by
  rcases run_induction _ InCall.step (.inl ⟨rfl, hc, hp⟩ : InCall (.get n) s.returned s) hr with
    ⟨hr', -, hp'⟩ | ⟨b, rest, hrest⟩
  · exact ⟨hr', hp'⟩
  · have hf' := (h.run as hr).flow
    have hlen : b.length = n := hf'.2 (.get n, b) (by simp [← hrest])
    have hpush := (run_induction (fun t => t.closed = true ∧ t.pushed = s.pushed)
      (fun h hs => ⟨((step_history hs).2.2 h.1).1, ((step_history hs).2.2 h.1).2.trans h.2⟩)
      ⟨hcl, rfl⟩ hr).2
    have hf := congrArg List.length (hf'.1.trans (hpush.trans h.flow.1.symm))
    simp only [← hrest, delivered_append, delivered_singleton, List.length_append] at hf
    omega

/-- A `get(1)` called on a closed, empty queue of capacity 1. -/
def getClosed : State Nat :=
  { State.init 1 with
    closed := true, ready := true, fired := true, call := .get 1, pos := .bufferPull 1 }

/-- `get_never_returns` at `getClosed`, along the run that ends the pull, completes and blocks. -/
theorem get_never_returns_getClosed :
    Reachable getClosed ∧ getClosed.call = .get 1 ∧ getClosed.pos ≠ .idle ∧
      getClosed.closed = true ∧ getClosed.batch.length + getClosed.buffer.length < 1 ∧
      ∃ s', run getClosed [.finishPull, .complete, .loop, .lockWait] = some s' ∧
        (s'.returned = getClosed.returned ∧ s'.pos ≠ .idle) :=
  have h : Reachable getClosed :=
    (Reachable.init 1).run [.close, .lockWakeup, .wakeup, .start (.get 1)] rfl
  ⟨h, rfl, nofun, rfl, by decide, { State.init 1 with
      closed := true, bufPtr := false, mtx := some .consumer, call := .get 1, pos := .await },
    rfl, get_never_returns h rfl nofun rfl (by decide) [.finishPull, .complete, .loop, .lockWait] rfl⟩

end Subscriber

end Broker
