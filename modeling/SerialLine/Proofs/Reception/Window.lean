import SerialLine.Pl011
import SerialLine.Uart.Control
/-! # Windows with a receive queue

What reception relies on of the registers of a PL011 block, and which operations of a line leave the
received characters where they are.

* `Window`: the registers have a receive queue behind them, which the data register takes from and the
  flags tell about. Characters may arrive at any access.
* `Quiet`: a change between two benches in which nothing happens to received characters except that
  some arrive.
* `quiets_*`: the operations that are quiet. `Quiets.bind` puts them together.
-/
set_option autoImplicit false

namespace SerialLine.Pl011

variable {σ α β : Type}

/-- A receive queue seen from outside: the words that wait in it, oldest first, and all the words that
it ever accepted. The latter is history; nothing has to remember it. -/
structure ReceiveQueue (σ : Type) where
  waiting : σ → List UInt32
  accepted : σ → List UInt32

/-- Between two states some words were accepted and none was taken. -/
def ReceiveQueue.Arrives (q : ReceiveQueue σ) (s s' : σ) : Prop :=
  ∃ new, q.waiting s' = q.waiting s ++ new ∧ q.accepted s' = q.accepted s ++ new

/-- What reception relies on of a register window and of the place where the driver of the block
remembers things. Words may arrive at every access. -/
structure Window (r : Registers σ) (chip : Place σ Chip) extends ReceiveQueue σ where
  chip_set : ∀ c s, chip.get (chip.set c s) = c
  chip_read : ∀ offset s, chip.get (r.read offset s).2 = chip.get s
  chip_write : ∀ offset word s, chip.get (r.write offset word s).2 = chip.get s
  /-- Reading the data register takes the oldest word. -/
  read_data : ∀ s word rest, waiting s = word :: rest → (r.read dr s).1 = word ∧
    ∃ new, waiting (r.read dr s).2 = rest ++ new ∧ accepted (r.read dr s).2 = accepted s ++ new
  /-- The flags say whether a word waits. -/
  read_flags : ∀ s, (r.read fr s).1 &&& frRxEmpty = 0 ↔ waiting s ≠ []
  /-- Reading another register takes nothing. -/
  read_other : ∀ offset s, offset ≠ dr → toReceiveQueue.Arrives s (r.read offset s).2
  /-- Masking and clearing interrupts and setting the divisor leave the queue alone. -/
  write_other : ∀ offset word s, offset ∈ [ibrd, fbrd, imsc, icr] →
    toReceiveQueue.Arrives s (r.write offset word s).2
  /-- So does writing the line control value that is there already. -/
  rewrite_line : ∀ s, toReceiveQueue.Arrives (r.read lcrh s).2
    (r.write lcrh (r.read lcrh s).1 (r.read lcrh s).2).2

namespace ReceiveQueue.Arrives

variable {q : ReceiveQueue σ} {s s' s'' : σ}

theorem refl (q : ReceiveQueue σ) (s : σ) : q.Arrives s s :=
  ⟨[], (List.append_nil _).symm, (List.append_nil _).symm⟩

theorem trans (h : q.Arrives s s') (h' : q.Arrives s' s'') : q.Arrives s s'' := by
  obtain ⟨new, hwaiting, haccepted⟩ := h
  obtain ⟨new', hwaiting', haccepted'⟩ := h'
  refine ⟨new ++ new', ?_, ?_⟩
  · rw [hwaiting', hwaiting, List.append_assoc]
  · rw [haccepted', haccepted, List.append_assoc]

end ReceiveQueue.Arrives

namespace Window

variable {r : Registers σ} {chip : Place σ Chip} {W : Window r chip} {id : BufferId}

/-! ## Quiet changes -/

/-- Nothing happened to the received characters except that some arrived in the block, and the buffer
and the driver's memory are what they were. -/
structure Quiet (W : Window r chip) (id : BufferId) (b b' : Bench σ) : Prop where
  ring : b'.buffers.ring id = b.buffers.ring id
  holds : b.buffers.Holds id → b'.buffers.Holds id
  chip : chip.get b'.outside = chip.get b.outside
  arrives : W.Arrives b.outside b'.outside

theorem Quiet.refl (W : Window r chip) (id : BufferId) (b : Bench σ) : W.Quiet id b b :=
  ⟨rfl, fun h => h, rfl, .refl _ _⟩

theorem Quiet.trans {b b' b'' : Bench σ} (h : W.Quiet id b b') (h' : W.Quiet id b' b'') :
    W.Quiet id b b'' :=
  ⟨h'.ring.trans h.ring, fun hb => h'.holds (h.holds hb), h'.chip.trans h.chip,
    h.arrives.trans h'.arrives⟩

/-- Something that is quiet from every bench on. -/
def Quiets (W : Window r chip) (id : BufferId) (f : StateM (Bench σ) α) : Prop :=
  ∀ b, W.Quiet id b (f b).2

theorem quiets_pure (a : α) : W.Quiets id (pure a) := Quiet.refl W id

theorem Quiets.bind {f : StateM (Bench σ) α} {g : α → StateM (Bench σ) β} (hf : W.Quiets id f)
    (hg : ∀ a, W.Quiets id (g a)) : W.Quiets id (f >>= g) :=
  fun b => (hf b).trans (hg (f b).1 (f b).2)

theorem quiets_logNote (level : Level) (text : String) :
    W.Quiets id (logNote (W := Bench σ) level text) :=
  fun b => ⟨rfl, fun h => h, rfl, .refl _ b.outside⟩

theorem quiets_ring (other : BufferId) : W.Quiets id (Bench.ring other) := Quiet.refl W id

theorem quiets_remembered : W.Quiets id (remembered chip) := Quiet.refl W id

/-! ## Register accesses -/

/-- An act on the outside that leaves the driver's memory and the queue alone. -/
def Leaves (W : Window r chip) (f : StateM σ α) : Prop :=
  ∀ s, chip.get (f s).2 = chip.get s ∧ W.Arrives s (f s).2

theorem quiets_outsideDo {f : StateM σ α} (h : W.Leaves f) : W.Quiets id (Bench.outsideDo f) :=
  fun b => ⟨rfl, fun hb => hb, (h b.outside).1, (h b.outside).2⟩

theorem leaves_pure (a : α) : W.Leaves (pure a : StateM σ α) := fun s => ⟨rfl, .refl _ s⟩

theorem Leaves.bind {f : StateM σ α} {g : α → StateM σ β} (hf : W.Leaves f)
    (hg : ∀ a, W.Leaves (g a)) : W.Leaves (f >>= g) := by
  intro s
  obtain ⟨hchip, harrives⟩ := hf s
  obtain ⟨hchip', harrives'⟩ := hg (f s).1 (f s).2
  exact ⟨hchip'.trans hchip, harrives.trans harrives'⟩

theorem leaves_read {offset : Nat} (h : offset ≠ dr) : W.Leaves (r.read offset) :=
  fun s => ⟨W.chip_read offset s, W.read_other offset s h⟩

theorem leaves_write {offset : Nat} (h : offset ∈ [ibrd, fbrd, imsc, icr]) (word : UInt32) :
    W.Leaves (r.write offset word) :=
  fun s => ⟨W.chip_write offset word s, W.write_other offset word s h⟩

theorem leaves_setBits_imsc (bits : UInt32) : W.Leaves (r.setBits imsc bits) :=
  (leaves_read (by decide)).bind fun _ => leaves_write (by decide) _

theorem leaves_clearBits_imsc (bits : UInt32) : W.Leaves (r.clearBits imsc bits) :=
  (leaves_read (by decide)).bind fun _ => leaves_write (by decide) _

theorem leaves_rewrite_line : W.Leaves (do r.write lcrh (← r.read lcrh)) := by
  intro s
  refine ⟨?_, (W.read_other lcrh s (by decide)).trans (W.rewrite_line s)⟩
  exact (W.chip_write _ _ _).trans (W.chip_read _ _)

theorem leaves_divisor (divisor : Divisor) :
    W.Leaves (writeAll r [(ibrd, divisor.whole), (fbrd, divisor.fraction)]) :=
  (leaves_write (by decide) _).bind fun _ => (leaves_write (by decide) _).bind fun _ =>
    leaves_pure ()

/-! ## Operations of a line -/

theorem quiets_resumeReceiving : W.Quiets id (resumeReceiving r chip) := by
  refine quiets_remembered.bind fun c => ?_
  by_cases hinstalled : c.interrupt.isSome = true
  · rw [if_pos hinstalled]
    exact quiets_outsideDo (leaves_setBits_imsc _)
  · rw [if_neg hinstalled]
    exact quiets_pure ()

theorem quiets_setBaudrate (rate : UInt32) : W.Quiets id (setBaudrate r chip rate) := by
  refine quiets_remembered.bind fun c => ?_
  cases Divisor.nearest? c.clock rate with
  | error e => exact quiets_pure _
  | ok divisor =>
    refine Quiets.bind ?_ fun _ => quiets_pure _
    exact quiets_outsideDo ((leaves_divisor divisor).bind fun _ => leaves_rewrite_line)

theorem quiets_isReady : W.Quiets id (driver r chip).isReady :=
  (quiets_outsideDo (leaves_read (by decide))).bind fun _ => quiets_pure _

theorem quiets_canSend : W.Quiets id (Uart.canSend (driver r chip)) := by
  refine quiets_isReady.bind fun ready => ?_
  cases ready with
  | true => exact quiets_pure _
  | false => exact quiets_pure _

theorem quiets_noteDropped (count : Nat) : W.Quiets id (Uart.noteDropped count) := by
  unfold Uart.noteDropped
  by_cases hpos : 0 < count
  · rw [if_pos hpos]
    exact quiets_logNote _ _
  · rw [if_neg hpos]
    exact quiets_pure ()

end Window
end SerialLine.Pl011
