import SerialLine.Proofs.Reception.Serving
import SerialLine.Proofs.Ring.Queue
/-! # What becomes of shared buffers

A driver and the interrupt that it serves hold the producer's end of a receive buffer, the line the other
end. Whoever holds an end can only make steps on the buffer: it stays, and keeps its size.

* `RingBuffer.Stepped`: what steps make of a buffer. `Stepped.sound`, `Stepped.shape`: it is kept in order.
* `Bench.Steps`: every shared buffer stays and is changed by steps only.
* `Driver.Heeds`, `Platform.Heeds`: the operations of a driver and a platform obey a relation.
* `Uart.rule_of_heeds`: if driver and platform only make steps, so do the calls of a line over them.
* `Pl011.heeds_driver`, `Pl011.steps_serve`: the driver of a PL011 block and its interrupt only make steps.
-/
set_option autoImplicit false

namespace SerialLine

variable {σ α : Type}

/-! ## One buffer -/

namespace RingBuffer

/-- Any number of steps, by the owner of a buffer or its producers. -/
inductive Stepped (r : RingBuffer) : RingBuffer → Prop where
  | refl : Stepped r r
  | step {r' : RingBuffer} (h : Stepped r r') (step : RingStep) : Stepped r (r'.perform step).2

variable {r r' r'' : RingBuffer}

theorem stepped_perform (r : RingBuffer) (step : RingStep) : r.Stepped (r.perform step).2 :=
  .step .refl step

theorem Stepped.trans (h : r.Stepped r') (h' : r'.Stepped r'') : r.Stepped r'' := by
  induction h' with
  | refl => exact h
  | step _ step ih => exact ih.step step

/-- The room of a buffer, and what it is room for. -/
def shape (r : RingBuffer) : Nat × CharWidth := (r.capacity, r.width)

theorem shape_push (r : RingBuffer) (word : UInt16) : (r.push word).2.shape = r.shape := by
  unfold push
  split <;> rfl

theorem shape_perform (r : RingBuffer) (step : RingStep) : (r.perform step).2.shape = r.shape := by
  cases step with
  | push word => exact r.shape_push word
  | producerPush word => exact r.shape_push word
  | popWord =>
    show r.popWord?.2.shape = r.shape
    unfold popWord?
    split <;> rfl
  | producerDropped => rfl
  | pop out => rfl
  | clear => rfl
  | takeDropped => rfl

theorem Sound.perform (h : r.Sound) (step : RingStep) : (r.perform step).2.Sound := by
  cases step with
  | push word => exact h.push word
  | producerPush word => exact h.push word
  | producerDropped => exact h.countDropped
  | pop out => exact h.pop out.length
  | popWord => exact h.popWord
  | clear => exact h.clear
  | takeDropped => exact h.takeDropped

theorem Stepped.shape_eq (h : r.Stepped r') : r'.shape = r.shape := by
  induction h with
  | refl => rfl
  | step _ step ih => exact (shape_perform _ step).trans ih

theorem Stepped.sound (h : r.Stepped r') (hr : r.Sound) : r'.Sound := by
  induction h with
  | refl => exact hr
  | step _ step ih => exact ih.perform step

end RingBuffer

/-! ## All buffers -/

namespace Bench

variable {b b' b'' : Bench σ}

/-- Shared buffers stay, and only steps of those who hold their ends change them. -/
def Steps (b b' : Bench σ) : Prop :=
  ∀ id, b.buffers.Holds id →
    b'.buffers.Holds id ∧ (b.buffers.ring id).Stepped (b'.buffers.ring id)

theorem onward_steps : Onward (Steps (σ := σ)) where
  refl _ _ hholds := ⟨hholds, .refl⟩
  trans h h' id hholds := by
    obtain ⟨hholds', hring⟩ := h id hholds
    obtain ⟨hholds'', hring'⟩ := h' id hholds'
    exact ⟨hholds'', hring.trans hring'⟩
  log _ _ _ hholds := ⟨hholds, .refl⟩

theorem Steps.of_buffers (h : b.Steps b') (hbuffers : b''.buffers = b'.buffers) : b.Steps b'' := by
  intro id hholds
  rw [hbuffers]
  exact h id hholds

theorem steps_outsideDo (f : StateM σ α) : Obeys Steps (outsideDo f) :=
  fun _ _ hholds => ⟨hholds, .refl⟩

theorem steps_ringDo {id : BufferId} {f : RingBuffer → α × RingBuffer}
    (h : ∀ r : RingBuffer, r.Stepped (f r).2) : Obeys (Steps (σ := σ)) (ringDo id f) := by
  intro b other hholds
  refine ⟨hholds.set _, ?_⟩
  by_cases heq : id = other
  · subst heq
    have hring : (ringDo id f b).2.buffers.ring id = (f (b.buffers.ring id)).2 :=
      RxBuffers.ring_set_self hholds _
    rw [hring]
    exact h _
  · have hring : (ringDo id f b).2.buffers.ring other = b.buffers.ring other :=
      RxBuffers.ring_set_other b.buffers heq _
    rw [hring]
    exact .refl

theorem steps_ringStep (id : BufferId) (step : RingStep) :
    Obeys (Steps (σ := σ)) (ringStep id step) := by
  intro b
  rw [ringStep_eq]
  exact steps_ringDo (fun r => r.stepped_perform step) b

theorem steps_push (id : BufferId) (word : UInt16) : Obeys (Steps (σ := σ)) (push id word) :=
  steps_ringDo fun r => r.stepped_perform (.push word)

theorem steps_countDropped (id : BufferId) : Obeys (Steps (σ := σ)) (countDropped id) :=
  steps_ringDo fun r => r.stepped_perform .producerDropped

theorem steps_pop (id : BufferId) (room : Nat) : Obeys (Steps (σ := σ)) (pop id room) := by
  refine steps_ringDo fun r => ?_
  -- a step pops into a buffer, of which only the length matters
  have hpop (out : List UInt8) : r.Stepped (r.pop out.length).2 := r.stepped_perform (.pop out)
  rw [← List.length_replicate (n := room) (a := (0 : UInt8))]
  exact hpop _

end Bench

/-! ## Drivers and platforms -/

/-- Whatever the operations of a driver answer, the bench after them is related to the one before. -/
structure Driver.Heeds (R : Bench σ → Bench σ → Prop) (d : Driver σ) : Prop where
  configure : ∀ settings, Obeys R (d.configure settings)
  setBaudrate : ∀ rate, Obeys R (d.setBaudrate rate)
  startReceiving : ∀ id, Obeys R (d.startReceiving id)
  stopReceiving : Obeys R d.stopReceiving
  resumeReceiving : Obeys R d.resumeReceiving
  receivedCount : Obeys R d.receivedCount
  takeWord : Obeys R d.takeWord
  isReady : Obeys R d.isReady
  sendWord : ∀ word, Obeys R (d.sendWord word)
  isIdle : Obeys R d.isIdle
  clearToSend : Obeys R d.clearToSend
  setDirection : ∀ high, Obeys R (d.setDirection high)
  disable : Obeys R d.disable

structure Platform.Heeds (R : Bench σ → Bench σ → Prop) (p : Platform σ) : Prop where
  ticks : Obeys R p.ticks
  background : Obeys R p.background
  isInterrupted : Obeys R p.isInterrupted

theorem Driver.heeds_inert {R : Bench σ → Bench σ → Prop} (h : Onward R) : Driver.inert.Heeds R where
  configure _ := h.pure _
  setBaudrate _ := h.pure _
  startReceiving _ := h.pure _
  stopReceiving := h.pure _
  resumeReceiving := h.pure _
  receivedCount := h.pure _
  takeWord := h.pure _
  isReady := h.pure _
  sendWord _ := h.pure _
  isIdle := h.pure _
  clearToSend := h.pure _
  setDirection _ := h.pure _
  disable := h.pure _

namespace Uart

variable {u : Uart} {d : Driver σ} {p : Platform σ}

/-- A line makes steps on its own buffer, besides what driver and platform do. -/
theorem rule_of_heeds (hd : d.Heeds Bench.Steps) (hp : p.Heeds Bench.Steps) :
    u.Rule Bench.Steps d p where
  toOnward := Bench.onward_steps
  ticks := hp.ticks
  background := hp.background
  isInterrupted := hp.isInterrupted
  isReady := hd.isReady
  clearToSend := hd.clearToSend
  isIdle := hd.isIdle
  receivedCount := hd.receivedCount
  setBaudrate := hd.setBaudrate
  take := Bench.onward_steps.takeWaiting hd.takeWord hd.resumeReceiving Bench.steps_pop
  discard := Bench.onward_steps.discardInput hd.takeWord hd.resumeReceiving
    (fun _ => Bench.steps_ringDo fun r => r.stepped_perform .clear) hd.receivedCount
  takeDropped := Bench.onward_steps.takeDropped fun _ _ =>
    Bench.steps_ringDo fun r => r.stepped_perform .takeDropped

end Uart

/-! ## PL011 blocks -/

namespace Pl011

variable (r : Registers σ) (chip : Place σ Chip)

theorem steps_update (f : Chip → Chip) : Obeys Bench.Steps (update chip f) := Bench.steps_outsideDo _

theorem steps_serve (i : Interrupt) (rounds : Nat) : Obeys Bench.Steps (i.serve r rounds) :=
  Interrupt.obeys_serve Bench.onward_steps (fun _ _ => Bench.steps_outsideDo _)
    (Bench.steps_outsideDo _)
    (Interrupt.obeys_moveOne Bench.onward_steps (Bench.steps_outsideDo _)
      (Bench.steps_countDropped i.sink) (Bench.steps_push i.sink))
    (fun _ => Bench.steps_outsideDo _) rounds

theorem steps_configure (s : LineSettings) : Obeys Bench.Steps (configure r chip s) := by
  refine Bench.onward_steps.bind (obeys_remembered Bench.onward_steps chip) fun c => ?_
  cases lineControl s.bits s.parity s.stop with
  | error e => exact Bench.onward_steps.pure _
  | ok line =>
    dsimp only
    cases Divisor.nearest? c.clock s.baudrate with
    | error e => exact Bench.onward_steps.pure _
    | ok divisor =>
      refine Bench.onward_steps.bind (Bench.steps_outsideDo _) fun _ => ?_
      refine Bench.onward_steps.bind (steps_update chip _) fun _ => ?_
      exact Bench.onward_steps.bind (Bench.onward_steps.note _ _) fun _ => Bench.onward_steps.pure _

theorem heeds_driver : (driver r chip).Heeds Bench.Steps where
  configure := steps_configure r chip
  setBaudrate := obeys_setBaudrate Bench.onward_steps chip fun _ => Bench.steps_outsideDo _
  startReceiving _ := Bench.onward_steps.bind (steps_update chip _) fun _ =>
    Bench.onward_steps.bind (Bench.steps_outsideDo _) fun _ => Bench.onward_steps.pure _
  stopReceiving := Bench.onward_steps.bind (Bench.steps_outsideDo _) fun _ => steps_update chip _
  resumeReceiving := obeys_resumeReceiving Bench.onward_steps chip (Bench.steps_outsideDo _)
  receivedCount := obeys_receivedCount Bench.onward_steps (fun _ => Bench.steps_outsideDo _) chip
  takeWord := obeys_takeWord Bench.onward_steps fun _ => Bench.steps_outsideDo _
  isReady := obeys_look Bench.onward_steps (Bench.steps_outsideDo _) _
  sendWord _ := Bench.steps_outsideDo _
  isIdle := obeys_look Bench.onward_steps (Bench.steps_outsideDo _) _
  clearToSend := Bench.onward_steps.pure _
  setDirection _ := Bench.steps_outsideDo _
  disable := Bench.onward_steps.bind (Bench.steps_outsideDo _) fun _ =>
    Bench.onward_steps.bind (steps_update chip _) fun _ => Bench.onward_steps.note _ _

end Pl011
end SerialLine
