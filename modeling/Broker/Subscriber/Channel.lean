import Broker.Subscriber.Invariant

/-!
# Subscriber/Channel — the FIFO channel a subscriber implements

    producer ──send ms──▸ [ queue ] ──receive c b──▸ consumer      (b the front of the queue)

Seen from its two ends, a subscriber is a channel.  The producer sends messages, which join the
back of a queue, and each consumer call `c` receives a batch `b` from the front of it, within what
`c` promises (`Call.Returns`).  `Channel.Step` is that machine, each step labelled with what it
shows at the channel's ends; its runs keep the FIFO law (`Channel.Run.lawful`).  `State.channel`
reads the channel off the queue: everything pushed, the messages pushed and not yet returned (the
call's batch, then the buffer), and every call's result.

* `refines_channel` — **every step of the queue, from a reachable state, is the channel step its
  action shows: a push sends exactly its items, a return receives exactly its batch, and every
  other step leaves the channel as it was**;
* `reachable_channel` — **every run of the queue is a run of the channel**, whence the queue's
  own FIFO law (`Reachable.flow`).
-/

namespace Broker

namespace Subscriber

variable {α : Type}

/-- **What a call promises about its result**: `get(num)` exactly `num` messages, `do_get(num, t)`
at most `num`, `poll()` at most the capacity. -/
def Call.Returns (capacity : Nat) : Call → List α → Prop
  | .get n, b => b.length = n
  | .doGet n, b => b.length ≤ n
  | .poll, b => b.length ≤ capacity

/-- Every message the finished calls returned, in call order. -/
def delivered (returned : List (Call × List α)) : List α :=
  (returned.map Prod.snd).flatten

@[simp] theorem delivered_nil : delivered ([] : List (Call × List α)) = [] := rfl

@[simp] theorem delivered_append (r r' : List (Call × List α)) :
    delivered (r ++ r') = delivered r ++ delivered r' := by
  simp [delivered]

@[simp] theorem delivered_singleton (c : Call) (b : List α) : delivered [(c, b)] = b := by
  simp [delivered]

/-- The channel: everything sent, the messages in transit (oldest first), and every call's
result. -/
structure Channel (α : Type) where
  sent : List α
  queue : List α
  received : List (Call × List α)

/-- What a step shows at the channel's two ends. -/
inductive Channel.Event (α : Type) where
  | send (ms : List α)
  | receive (c : Call) (b : List α)

namespace Channel

variable {capacity : Nat} {ch ch' : Channel α} {e : Event α} {es : List (Event α)}

/-- **The channel's steps**: a send appends messages to the queue; a call `c` receives a batch
from the front of the queue, within what `c` promises. -/
inductive Step (capacity : Nat) : Channel α → Event α → Channel α → Prop
  | send (ch : Channel α) (ms : List α) (h : ms ≠ []) :
      Step capacity ch (.send ms) ⟨ch.sent ++ ms, ch.queue ++ ms, ch.received⟩
  | receive (ch : Channel α) (c : Call) (b rest : List α) (hq : ch.queue = b ++ rest)
      (hr : c.Returns capacity b) :
      Step capacity ch (.receive c b) ⟨ch.sent, rest, ch.received ++ [(c, b)]⟩

/-- The channel's runs, with the events they show. -/
inductive Run (capacity : Nat) : Channel α → List (Event α) → Channel α → Prop
  | refl (ch : Channel α) : Run capacity ch [] ch
  | tail {ch ch' ch'' : Channel α} {es : List (Event α)} {e : Event α} :
      Run capacity ch es ch' → Step capacity ch' e ch'' → Run capacity ch (es ++ [e]) ch''

/-- **The FIFO law**: the messages received, then those in transit, are the messages sent, and
every result keeps its call's promise. -/
structure Lawful (capacity : Nat) (ch : Channel α) : Prop where
  fifo : delivered ch.received ++ ch.queue = ch.sent
  returns : ∀ r ∈ ch.received, r.1.Returns capacity r.2

theorem Step.lawful (h : Step capacity ch e ch') (hl : Lawful capacity ch) :
    Lawful capacity ch' := by
  cases h with
  | send ms => exact ⟨by rw [← hl.fifo, List.append_assoc], hl.returns⟩
  | receive c b rest hq hr =>
    refine ⟨by rw [← hl.fifo, hq]; simp, fun r hm => ?_⟩
    rcases List.mem_append.1 hm with hm | hm
    · exact hl.returns r hm
    · rwa [List.mem_singleton.1 hm]

/-- **Every run from the empty channel keeps the FIFO law.** -/
theorem Run.lawful (h : Run capacity ⟨[], [], []⟩ es ch) : Lawful capacity ch := by
  induction h with
  | refl => exact ⟨rfl, nofun⟩
  | tail _ hs ih => exact hs.lawful ih

end Channel

/-! ## The queue as a channel -/

namespace State

variable (s : State α)

/-- The channel a queue state implements. -/
def channel : Channel α := ⟨s.pushed, s.batch ++ s.buffer, s.returned⟩

@[simp] theorem pull_channel (n : Nat) : (s.pull n).channel = s.channel := rfl

@[simp] theorem extinguish_channel : s.extinguish.channel = s.channel := rfl

end State

variable {s s' : State α} {a : Action α}

/-- A call returns its batch: the channel receives it from the front of the queue. -/
theorem finish_step (hr : s.call.Returns s.capacity s.batch) :
    Channel.Step s.capacity s.channel (.receive s.call s.batch) s.finish.channel :=
  .receive s.channel s.call s.batch s.buffer rfl hr

/-- **The queue implements the channel.**  From a reachable state, a push is the channel's send of
exactly the pushed items, a step that returns a call's result is the channel's receive of exactly
that result, and every other step leaves the channel unchanged. -/
theorem refines_channel (h : Reachable s) (hs : step s a = some s') :
    (∃ items, a = .push items ∧ Channel.Step s.capacity s.channel (.send items) s'.channel) ∨
      (∃ c b, s'.returned = s.returned ++ [(c, b)] ∧
        Channel.Step s.capacity s.channel (.receive c b) s'.channel) ∨
      (s'.channel = s.channel ∧ ∀ items, a ≠ .push items) := by
  have hi := Inv.reachable h
  have hb := hi.batch_le
  cases a with
  | push items =>
    simp only [step, Option.ite_none_right_eq_some, Option.some.injEq] at hs
    obtain ⟨⟨-, -, hn, -⟩, rfl⟩ := hs
    refine .inl ⟨items, rfl, ?_⟩
    simpa [State.channel] using Channel.Step.send s.channel items (List.ne_nil_of_length_pos hn)
  | take n =>
    simp only [step] at hs
    split at hs
    · simp only [Option.ite_none_right_eq_some, Option.some.injEq] at hs
      obtain ⟨-, rfl⟩ := hs
      exact .inr (.inr ⟨by simp [State.channel], nofun⟩)
    · cases hs
  | start c =>
    simp only [step] at hs
    split at hs
    next hp =>
      have hc : { s with call := c, batch := [] }.channel = s.channel := by
        simp [State.channel, hi.idle_batch hp]
      cases c with
      | get n | doGet n =>
        simp only [Option.ite_none_right_eq_some, Option.some.injEq] at hs
        obtain ⟨-, rfl⟩ := hs
        exact .inr (.inr ⟨by simpa using hc, nofun⟩)
      | poll =>
        obtain rfl := Option.some.inj hs
        split
        · exact .inr (.inr ⟨by simpa using hc, nofun⟩)
        · refine .inr (.inl ⟨.poll, [], rfl, ?_⟩)
          rw [← hc]
          exact finish_step (s := { s with call := .poll, batch := [] }) (Nat.zero_le _)
    next => cases hs
  | loop =>
    simp only [step] at hs
    split at hs
    next =>
      split at hs <;> obtain rfl := Option.some.inj hs
      case h_1 n hc | h_2 n hc =>
        split
        · exact .inr (.inr ⟨rfl, nofun⟩)
        · refine .inr (.inl ⟨_, _, rfl, finish_step ?_⟩)
          simp only [hc, Call.limit, Call.Returns] at hb ⊢
          omega
      case h_3 hc => exact .inr (.inl ⟨_, _, rfl, finish_step (by simpa [hc, Call.limit] using hb)⟩)
    next => cases hs
  | timeout =>
    simp only [step] at hs
    split at hs
    next hc =>
      obtain rfl := Option.some.inj hs
      exact .inr (.inl ⟨_, _, rfl, finish_step (by simpa [hc, Call.limit] using hb)⟩)
    next => cases hs
  | lockWakeup | wakeup | close | finishPull | complete | testAvailable | lockRecheck | recheck
    | lockWait | awake =>
    simp only [step] at hs
    repeat' (first | split at hs | (cases hs; done))
    all_goals cases hs
    all_goals exact .inr (.inr ⟨by first | rfl | simp [State.channel, State.extinguish], nofun⟩)

/-- **Every run of the queue is a run of the channel**: from a fresh subscriber to every reachable
state, the channel runs through the events the queue's steps show. -/
theorem reachable_channel (h : Reachable s) :
    ∃ es, Channel.Run s.capacity ⟨[], [], []⟩ es s.channel := by
  induction h with
  | init capacity => exact ⟨[], .refl _⟩
  | @step s s' a hr hs ih =>
    obtain ⟨es, hes⟩ := ih
    rw [step_capacity hs]
    rcases refines_channel hr hs with ⟨items, -, hc⟩ | ⟨c, b, -, hc⟩ | ⟨hc, -⟩
    · exact ⟨_, hes.tail hc⟩
    · exact ⟨_, hes.tail hc⟩
    · exact ⟨es, hc ▸ hes⟩

/-- **FIFO delivery**, from the channel: in every reachable state the results in call order, the
call's batch and the buffer are the pushed messages in push order, and every result keeps its
call's promise. -/
theorem Reachable.flow (h : Reachable s) :
    delivered s.returned ++ s.batch ++ s.buffer = s.pushed ∧
      ∀ r ∈ s.returned, r.1.Returns s.capacity r.2 := by
  obtain ⟨es, hr⟩ := reachable_channel h
  have hl := hr.lawful
  exact ⟨by simpa [State.channel] using hl.fifo, hl.returns⟩

/-- The queue after `push [1, 2]`, a `get(1)`, a close, and a `poll()` that drains the buffer and
runs `on_complete`; that pull handed out a message, so `buf_` stays set. -/
def drainedByPoll : State Nat :=
  { State.init 2 with
    closed := true, call := .poll, pushed := [1, 2], returned := [(.get 1, [1]), (.poll, [2])],
    handed := 1 }

theorem reachable_drainedByPoll : Reachable drainedByPoll :=
  (Reachable.init 2).run [.push [1, 2], .lockWakeup, .wakeup, .start (.get 1), .take 1,
    .finishPull, .testAvailable, .loop, .close, .start .poll, .take 1, .finishPull, .complete,
    .testAvailable, .lockRecheck, .loop] rfl

/-- `reachable_channel` at `drainedByPoll`. -/
theorem reachable_channel_drainedByPoll :
    Reachable drainedByPoll ∧
      ∃ es, Channel.Run drainedByPoll.capacity ⟨[], [], []⟩ es drainedByPoll.channel :=
  ⟨reachable_drainedByPoll, reachable_channel reachable_drainedByPoll⟩

end Subscriber

end Broker
