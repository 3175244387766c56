import Broker.Subscriber.Queue

/-!
# Subscriber/Invariant — what every interleaving keeps

One invariant `Inv`, preserved by every step of either thread (`Inv.step`) and hence true in every
reachable state (`Inv.reachable`).  Its fields say who can hold `mtx_`, that the flare mirrors
`ready_`, that messages never sit in the buffer unannounced, and how far a call's batch can grow.
Where the messages go is the subject of `Subscriber/Channel`.

* `Inv.exclusive` — `mtx_` guards disjoint critical sections;
* `no_lost_wakeup` — **the flare is fired exactly when `ready_` is set, and a non-empty buffer has
  `ready_` set or an `on_producer_wakeup` in progress.**
-/

namespace Broker

namespace Subscriber

variable {α : Type}

/-- The messages `buf_->pull` may still hand out. -/
def Pos.demand : Pos → Nat
  | .bufferPull d => d
  | _ => 0

/-- The program points inside a call at which the consumer holds no lock. -/
def Pos.unlocked : Pos → Bool
  | .bufferPull _ | .complete | .available | .recheckLock | .loop | .waitLock => true
  | _ => false

/-- **The subscriber's invariant.** -/
structure Inv (s : State α) : Prop where
  /-- The flare mirrors `ready_`. -/
  fired_eq : s.fired = s.ready
  /-- No lost wakeup: a message in the buffer is announced, or its announcement is under way. -/
  wake : s.buffer ≠ [] → s.ready = true ∨ s.prod ≠ .idle
  /-- The producer is in `on_producer_wakeup` only after a push into an empty buffer or a close,
  and holds the buffer's lock until it leaves, so the buffer cannot have been drained meanwhile. -/
  busy : s.prod ≠ .idle → s.buffer ≠ [] ∨ s.closed = true
  mtx_producer : s.mtx = some .producer ↔ s.prod = .wakeupHeld
  mtx_consumer : s.mtx = some .consumer ↔ s.pos = .recheckHeld ∨ s.pos = .await
  /-- A consumer blocked on the flare saw `ready_` unset, and nobody could set it since. -/
  await_ready : s.pos = .await → s.ready = false
  complete_drained : s.pos = .complete → s.buffer = [] ∧ s.closed = true
  idle_batch : s.pos = .idle → s.batch = []
  demand : s.batch.length + s.pos.demand ≤ s.call.limit s.capacity

namespace Inv

variable {s s' : State α} {p : Pos}

theorem init (capacity : Nat) : Inv (State.init capacity : State α) := by
  constructor <;> simp [State.init, Pos.demand]

theorem batch_le (hi : Inv s) : s.batch.length ≤ s.call.limit s.capacity :=
  Nat.le_of_add_right_le hi.demand

/-- **`mtx_` guards disjoint critical sections**: the flare is never fired while the consumer
re-checks `ready_` or waits on it. -/
theorem exclusive (hi : Inv s) : ¬(s.prod = .wakeupHeld ∧ (s.pos = .recheckHeld ∨ s.pos = .await)) :=
  fun ⟨hp, hc⟩ => nomatch (hi.mtx_producer.2 hp).symm.trans (hi.mtx_consumer.2 hc)

/-! ## Consumer moves

Most consumer steps only move the program counter, take or release `mtx_`, disarm the flare, or
begin and end a call; each keeps the invariant under the conditions its lemma names. -/

/-- A step that only moves the consumer, to a point where it holds no lock. -/
theorem move (hi : Inv s) (hm : s.mtx ≠ some .consumer) (hp : p.unlocked)
    (hc : p = .complete → s.buffer = [] ∧ s.closed = true)
    (hd : s.batch.length + p.demand ≤ s.call.limit s.capacity) : Inv { s with pos := p } :=
  { hi with
    mtx_consumer := ⟨fun e => absurd e hm, by rintro (rfl | rfl) <;> cases hp⟩
    await_ready := by rintro rfl; cases hp
    complete_drained := hc
    idle_batch := by rintro rfl; cases hp
    demand := hd }

/-- `q->pull(buf, num)` is entered with a demand within the call's. -/
theorem pull (hi : Inv s) (hm : s.mtx ≠ some .consumer)
    (hn : s.batch.length + num ≤ s.call.limit s.capacity) : Inv (s.pull num) := by
  unfold State.pull
  split
  · exact { hi.move (p := .bufferPull num) hm rfl nofun hn with }
  · exact { hi.move (p := .loop) hm rfl nofun hi.batch_le with }

/-- The end of `pull`: `buf_` nulled, or the test `available() == 0`. -/
theorem afterPull (hi : Inv s) (hm : s.mtx ≠ some .consumer) : Inv s.afterPull := by
  unfold State.afterPull
  split
  · exact { hi.move (p := .loop) hm rfl nofun hi.batch_le with }
  · exact hi.move hm rfl nofun hi.batch_le

/-- A call begins, with an empty result vector. -/
theorem call (hi : Inv s) (hp : s.pos = .idle) (c : Call) : Inv { s with call := c, batch := [] } :=
  { hi with
    idle_batch := fun _ => rfl
    demand := by simp [hp, Pos.demand] }

/-- A call returns its batch. -/
theorem finish (hi : Inv s) (hm : s.mtx ≠ some .consumer) : Inv s.finish :=
  { hi with
    mtx_consumer := ⟨fun e => absurd e hm, by rintro (h | h) <;> cases h⟩
    await_ready := nofun
    complete_drained := nofun
    idle_batch := fun _ => rfl
    demand := Nat.zero_le _ }

/-- The consumer takes `mtx_`, to re-check or to block on the flare. -/
theorem acquire (hi : Inv s) (hm : s.mtx = none) (hp : p = .recheckHeld ∨ p = .await)
    (hr : p = .await → s.ready = false) : Inv { s with mtx := some .consumer, pos := p } :=
  { hi with
    mtx_producer := iff_of_false (by simp) fun e => by simp [hi.mtx_producer.2 e] at hm
    mtx_consumer := iff_of_true rfl hp
    await_ready := hr
    complete_drained := fun e => by rcases hp with rfl | rfl <;> cases e
    idle_batch := fun e => by rcases hp with rfl | rfl <;> cases e
    demand := by rcases hp with rfl | rfl <;> exact hi.batch_le }

/-- The consumer releases `mtx_` and goes back to its call's loop. -/
theorem release (hi : Inv s) (hm : s.mtx = some .consumer) :
    Inv { s with mtx := none, pos := .loop } :=
  { hi with
    mtx_producer := iff_of_false (by simp) fun e => by simp [hi.mtx_producer.2 e] at hm
    mtx_consumer := iff_of_false (by simp) (by simp)
    await_ready := nofun
    complete_drained := nofun
    idle_batch := nofun
    demand := hi.batch_le }

/-- `extinguish`'s body disarms the flare, once the buffer is empty. -/
theorem extinguish (hi : Inv s) (hb : s.buffer = []) : Inv s.extinguish :=
  { hi with
    fired_eq := by cases h : s.ready <;> simp [State.extinguish, h, hi.fired_eq]
    wake := fun h => absurd hb h
    await_ready := fun _ => rfl }

/-- A consumer blocked on the flare holds `mtx_`, and the flare is out. -/
theorem await (hi : Inv s) (hp : s.pos = .await) : s.mtx = some .consumer ∧ s.fired = false :=
  ⟨hi.mtx_consumer.2 (.inr hp), hi.fired_eq ▸ hi.await_ready hp⟩

/-! ## One lemma per action -/

theorem push (hi : Inv s) (h : step s (.push items) = some s') : Inv s' := by
  simp only [step, Option.ite_none_right_eq_some, Option.some.injEq] at h
  obtain ⟨⟨hp, hc, hn, -⟩, rfl⟩ := h
  have hnh : s.mtx ≠ some .producer := fun e => by simp [hi.mtx_producer.1 e] at hp
  have hne : s.buffer ++ items ≠ [] := by simp [List.ne_nil_of_length_pos hn]
  exact { hi with
    wake := fun _ => by
      cases hb : s.buffer.isEmpty
      · simpa [hb, hp] using hi.wake (List.isEmpty_eq_false.1 hb)
      · simp [hb]
    busy := fun _ => .inl hne
    mtx_producer := iff_of_false hnh (by split <;> simp)
    complete_drained := fun e => absurd (hi.complete_drained e).2 (by simp [hc]) }

theorem lockWakeup (hi : Inv s) (h : step s .lockWakeup = some s') : Inv s' := by
  simp only [step, Option.ite_none_right_eq_some, Option.some.injEq] at h
  obtain ⟨⟨hp, hm⟩, rfl⟩ := h
  exact { hi with
    wake := fun _ => .inr (by simp)
    busy := fun _ => hi.busy (by simp [hp])
    mtx_producer := iff_of_true rfl rfl
    mtx_consumer := iff_of_false (by simp) fun e => by simp [hi.mtx_consumer.2 e] at hm }

theorem wakeup (hi : Inv s) (h : step s .wakeup = some s') : Inv s' := by
  simp only [step, Option.ite_none_right_eq_some, Option.some.injEq] at h
  obtain ⟨hp, rfl⟩ := h
  have hpos : ¬(s.pos = .recheckHeld ∨ s.pos = .await) := fun e => hi.exclusive ⟨hp, e⟩
  split
  next hr => exact { hi with
    wake := fun _ => .inl hr
    busy := fun h => absurd rfl h
    mtx_producer := iff_of_false (by simp) (by simp)
    mtx_consumer := iff_of_false (by simp) hpos
    await_ready := fun e => absurd (.inr e) hpos }
  next => exact { hi with
    fired_eq := rfl
    wake := fun _ => .inl rfl
    busy := fun h => absurd rfl h
    mtx_producer := iff_of_false (by simp) (by simp)
    mtx_consumer := iff_of_false (by simp) hpos
    await_ready := fun e => absurd (.inr e) hpos }

theorem close (hi : Inv s) (h : step s .close = some s') : Inv s' := by
  simp only [step, Option.ite_none_right_eq_some, Option.some.injEq] at h
  obtain ⟨⟨hp, -⟩, rfl⟩ := h
  have hnh : s.mtx ≠ some .producer := fun e => by simp [hi.mtx_producer.1 e] at hp
  exact { hi with
    wake := fun hb => by simpa [List.isEmpty_eq_false.2 hb, hp] using hi.wake hb
    busy := fun _ => .inr rfl
    mtx_producer := iff_of_false hnh (by split <;> simp)
    complete_drained := fun e => ⟨(hi.complete_drained e).1, rfl⟩ }

theorem start (hi : Inv s) (h : step s (.start c) = some s') : Inv s' := by
  simp only [step] at h
  split at h
  next hp =>
    have hm : s.mtx ≠ some .consumer := fun e => by simpa [hp] using hi.mtx_consumer.1 e
    have hc := hi.call hp c
    cases c with
    | get n | doGet n =>
      simp only [Option.ite_none_right_eq_some, Option.some.injEq] at h
      obtain ⟨-, rfl⟩ := h
      exact hc.pull hm (by simp [Call.limit])
    | poll =>
      obtain rfl := Option.some.inj h
      split
      · exact hc.pull hm (by simp [Call.limit])
      · exact hc.finish hm
  next => cases h

theorem take (hi : Inv s) (h : step s (.take n) = some s') : Inv s' := by
  simp only [step] at h
  split at h
  next d hp =>
    simp only [Option.ite_none_right_eq_some, Option.some.injEq] at h
    obtain ⟨⟨hw, hn, hnd, hnb⟩, rfl⟩ := h
    have hd : s.batch.length + d ≤ s.call.limit s.capacity := by
      simpa [hp, Pos.demand] using hi.demand
    exact { hi with
      wake := fun h => hi.wake fun e => h (by simp [e])
      busy := fun h => absurd hw h
      mtx_consumer := iff_of_false (fun e => by simpa [hp] using hi.mtx_consumer.1 e) (by simp)
      await_ready := nofun
      complete_drained := nofun
      idle_batch := nofun
      demand := by simp only [List.length_append, List.length_take, Pos.demand]; omega }
  next => cases h

theorem finishPull (hi : Inv s) (h : step s .finishPull = some s') : Inv s' := by
  simp only [step] at h
  split at h
  next d hp =>
    simp only [Option.ite_none_right_eq_some, Option.some.injEq] at h
    obtain ⟨-, rfl⟩ := h
    have hm : s.mtx ≠ some .consumer := fun e => by simpa [hp] using hi.mtx_consumer.1 e
    split
    next hc =>
      simp only [Bool.and_eq_true, List.isEmpty_eq_true] at hc
      exact hi.move hm rfl (fun _ => ⟨hc.2, hc.1⟩) hi.batch_le
    next => exact hi.afterPull hm
  next => cases h

theorem complete (hi : Inv s) (h : step s .complete = some s') : Inv s' := by
  simp only [step, Option.ite_none_right_eq_some, Option.some.injEq] at h
  obtain ⟨⟨hp, hm⟩, rfl⟩ := h
  exact (hi.extinguish (hi.complete_drained hp).1).afterPull (by simp [State.extinguish, hm])

theorem testAvailable (hi : Inv s) (h : step s .testAvailable = some s') : Inv s' := by
  simp only [step, Option.ite_none_right_eq_some, Option.some.injEq] at h
  obtain ⟨⟨hp, -⟩, rfl⟩ := h
  have hm : s.mtx ≠ some .consumer := fun e => by simpa [hp] using hi.mtx_consumer.1 e
  split <;> exact hi.move hm rfl nofun hi.batch_le

theorem lockRecheck (hi : Inv s) (h : step s .lockRecheck = some s') : Inv s' := by
  simp only [step, Option.ite_none_right_eq_some, Option.some.injEq] at h
  obtain ⟨⟨-, hm⟩, rfl⟩ := h
  split
  · exact hi.acquire hm (.inl rfl) nofun
  · exact hi.move (by simp [hm]) rfl nofun hi.batch_le

theorem recheck (hi : Inv s) (h : step s .recheck = some s') : Inv s' := by
  simp only [step, Option.ite_none_right_eq_some, Option.some.injEq] at h
  obtain ⟨⟨hp, -⟩, rfl⟩ := h
  have hm := hi.mtx_consumer.2 (.inl hp)
  split
  next hb => exact (hi.extinguish (List.isEmpty_eq_true.1 hb)).release hm
  next => exact hi.release hm

theorem loop (hi : Inv s) (h : step s .loop = some s') : Inv s' := by
  simp only [step] at h
  split at h
  next hp =>
    have hm : s.mtx ≠ some .consumer := fun e => by simpa [hp] using hi.mtx_consumer.1 e
    split at h <;> obtain rfl := Option.some.inj h
    case h_1 | h_2 =>
      split
      · exact hi.move hm rfl nofun hi.batch_le
      · exact hi.finish hm
    case h_3 => exact hi.finish hm
  next => cases h

theorem lockWait (hi : Inv s) (h : step s .lockWait = some s') : Inv s' := by
  simp only [step, Option.ite_none_right_eq_some, Option.some.injEq] at h
  obtain ⟨⟨-, hm⟩, rfl⟩ := h
  split
  · exact hi.pull (by simp [hm]) (by have := hi.batch_le; omega)
  next hr => exact hi.acquire hm (.inr rfl) fun _ => by simpa using hr

/-- The flare is never fired while the consumer awaits it, so `awake` never happens. -/
theorem awake (hi : Inv s) (h : step s .awake = some s') : Inv s' := by
  simp only [step, Option.ite_none_right_eq_some, Option.some.injEq] at h
  obtain ⟨⟨hp, hf⟩, -⟩ := h
  simp [(hi.await hp).2] at hf

theorem timeout (hi : Inv s) (h : step s .timeout = some s') : Inv s' := by
  simp only [step] at h
  split at h
  next hp _ =>
    obtain rfl := Option.some.inj h
    exact (hi.release (hi.mtx_consumer.2 (.inr hp))).finish (by simp)
  next => cases h

/-- **Every step keeps the invariant.** -/
theorem step (hi : Inv s) {a : Action α} (h : Subscriber.step s a = some s') : Inv s' := by
  cases a with
  | push items => exact hi.push h
  | lockWakeup => exact hi.lockWakeup h
  | wakeup => exact hi.wakeup h
  | close => exact hi.close h
  | start c => exact hi.start h
  | take n => exact hi.take h
  | finishPull => exact hi.finishPull h
  | complete => exact hi.complete h
  | testAvailable => exact hi.testAvailable h
  | lockRecheck => exact hi.lockRecheck h
  | recheck => exact hi.recheck h
  | loop => exact hi.loop h
  | lockWait => exact hi.lockWait h
  | awake => exact hi.awake h
  | timeout => exact hi.timeout h

/-- **Every reachable state satisfies the invariant.** -/
theorem reachable (h : Reachable s) : Inv s := by
  induction h with
  | init capacity => exact init capacity
  | step _ _ hs ih => exact ih.step hs

end Inv

/-! ## No lost wakeup -/

/-- **No lost wakeup.**  In every reachable state the flare is fired exactly when `ready_` is set,
and while a message sits in the buffer, `ready_` is set or an `on_producer_wakeup` is under way. -/
theorem no_lost_wakeup (s : State α) (h : Reachable s) :
    (s.fired = true ↔ s.ready = true) ∧ (s.buffer ≠ [] → s.ready = true ∨ s.prod ≠ .idle) :=
  have hi := Inv.reachable h
  ⟨by rw [hi.fired_eq], hi.wake⟩

/-- A first message pushed into an empty queue of capacity 2: its wakeup is pending. -/
def pushedOnce : State Nat :=
  { State.init 2 with buffer := [1], pushed := [1], prod := .wakeup }

/-- `no_lost_wakeup` at `pushedOnce`. -/
theorem no_lost_wakeup_pushedOnce :
    Reachable pushedOnce ∧ ((pushedOnce.fired = true ↔ pushedOnce.ready = true) ∧
      (pushedOnce.buffer ≠ [] → pushedOnce.ready = true ∨ pushedOnce.prod ≠ .idle)) :=
  have h : Reachable pushedOnce := (Reachable.init 2).run [.push [1]] rfl
  ⟨h, no_lost_wakeup _ h⟩

end Subscriber

end Broker
