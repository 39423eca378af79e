import SerialLine.Pl011
import SerialLine.Proofs.Lines.Creation
/-! # Installing reception

What the making of a line with a receive buffer leaves behind over a PL011 block.

* `Remembers`: the driver of the block has a place of its own to remember things.
* `create_installs`: the buffer is new, and the interrupt of the block is served into it. It holds
  characters back if the line has flow control.
-/
set_option autoImplicit false

namespace SerialLine.Pl011

variable {σ : Type} {r : Registers σ} {chip : Place σ Chip} {id : BufferId}

/-- A place that keeps what was put there, whatever the registers are used for. -/
structure Remembers (r : Registers σ) (chip : Place σ Chip) : Prop where
  chip_set : ∀ c s, chip.get (chip.set c s) = c
  chip_read : ∀ offset s, chip.get (r.read offset s).2 = chip.get s
  chip_write : ∀ offset word s, chip.get (r.write offset word s).2 = chip.get s

namespace Remembers

variable (h : Remembers r chip)
include h

theorem chip_setBits (offset : Nat) (bits : UInt32) (s : σ) :
    chip.get (r.setBits offset bits s).2 = chip.get s :=
  (h.chip_write _ _ _).trans (h.chip_read _ _)

theorem chip_clearBits (offset : Nat) (bits : UInt32) (s : σ) :
    chip.get (r.clearBits offset bits s).2 = chip.get s :=
  (h.chip_write _ _ _).trans (h.chip_read _ _)

/-- Programming a block succeeds only for frames of seven or eight bits. -/
theorem configure_ok {settings : LineSettings} {b b' : Bench σ}
    (hok : configure r chip settings b = (.ok (), b')) :
    (settings.bits = 7 ∨ settings.bits = 8) ∧
      (chip.get b'.outside).flowControl = settings.rts := by
  have hlook : remembered chip b = (chip.get b.outside, b) := rfl
  simp only [configure, bind, StateT.bind, hlook] at hok
  cases hline : lineControl settings.bits settings.parity settings.stop with
  | error e =>
    rw [hline] at hok
    cases hok
  | ok line =>
    rw [hline] at hok
    simp only at hok
    cases hdivisor : Divisor.nearest? (chip.get b.outside).clock settings.baudrate with
    | error e =>
      rw [hdivisor] at hok
      cases hok
    | ok divisor =>
      rw [hdivisor] at hok
      cases hok
      refine ⟨?_, congrArg Chip.flowControl (h.chip_set _ _)⟩
      unfold lineControl sizeBits at hline
      by_cases h7 : settings.bits = 7
      · exact .inl h7
      · by_cases h8 : settings.bits = 8
        · exact .inr h8
        · rw [if_neg h7, if_neg h8] at hline
          cases hline

theorem interrupt_startReceiving (id : BufferId) (b : Bench σ) :
    (chip.get (startReceiving r chip id b).2.outside).interrupt =
      some ⟨id, (chip.get b.outside).flowControl⟩ := by
  show (chip.get (r.setBits imsc intAll (r.write icr intAll _).2).2).interrupt = _
  rw [h.chip_setBits, h.chip_write, h.chip_set]

theorem chip_setDirection (high : Bool) (b : Bench σ) :
    chip.get (setDirection r high b).2.outside = chip.get b.outside := by
  cases high with
  | false => exact h.chip_setBits _ _ _
  | true => exact h.chip_clearBits _ _ _

theorem faceReceiving (u : Uart) (b : Bench σ) :
    (u.faceReceiving (driver r chip) b).2.buffers = b.buffers ∧
      chip.get (u.faceReceiving (driver r chip) b).2.outside = chip.get b.outside := by
  unfold Uart.faceReceiving
  cases u.hasDirection with
  | true => exact ⟨rfl, h.chip_setDirection _ b⟩
  | false => exact ⟨rfl, rfl⟩

end Remembers

variable {c : Config} {u : Uart} {w w₀ : World σ}

/-- A line with a receive buffer was made: the bench `b` had the new buffer in it, then reception was
started, and the direction output was turned. -/
structure Installs (r : Registers σ) (chip : Place σ Chip) (c : Config) (u : Uart) (w : World σ)
    (id : BufferId) (b : Bench σ) : Prop where
  rxBuffer : u.rxBuffer = some id
  bits : c.bits = 7 ∨ c.bits = 8
  ring : RingBuffer.create c.receiveCapacity c.bits = .ok (b.buffers.ring id)
  holds : b.buffers.Holds id
  flowControl : (chip.get b.outside).flowControl = c.rts.isSome
  buffers : w.bench.buffers = b.buffers
  outside : w.bench.outside =
    (u.faceReceiving (driver r chip) (startReceiving r chip id b).2).2.outside

theorem create_installs (hremembers : Remembers r chip)
    (h : Uart.create (driver r chip) c w₀ = (.ok u, w)) (hrx : c.rx.isSome = true)
    (hcapacity : 0 < c.receiveCapacity) : ∃ id b, Installs r chip c u w id b := by
  obtain ⟨-, -, ring, b, hbuffer, hprogram, hbench⟩ := Uart.create_ok h
  have hsome := Uart.bufferFor_isSome hbuffer
  rw [hrx, decide_eq_true hcapacity] at hsome
  obtain ⟨b₁, hconfigure, ⟨rfl, -, -⟩ | ⟨ring', id, b₂, rfl, hadd, hstart, rfl⟩⟩ :=
    Uart.program_ok hprogram
  · cases hsome
  · obtain ⟨hbits, hflow⟩ := hremembers.configure_ok hconfigure
    obtain ⟨hholds, hring⟩ := Uart.addRing_holds hadd
    have hstarted : (startReceiving r chip id b₂).2 = b := congrArg Prod.snd hstart
    refine ⟨id, b₂, rfl, hbits, ?_, hholds, ?_, ?_, ?_⟩
    · rw [hring]
      exact Uart.create_of_bufferFor hbuffer
    · rw [Uart.addRing_outside hadd]
      exact hflow
    · rw [hbench]
      refine (hremembers.faceReceiving _ b).1.trans ?_
      rw [← hstarted]
      rfl
    · rw [hbench, hstarted]
      rfl

theorem Installs.narrow {b : Bench σ} (h : Installs r chip c u w id b) : c.bits ≤ 8 := by
  rcases h.bits with hbits | hbits
  · rw [hbits]
    decide
  · rw [hbits]
    decide

theorem Installs.interrupt (hremembers : Remembers r chip) {b : Bench σ}
    (h : Installs r chip c u w id b) :
    (chip.get w.bench.outside).interrupt = some ⟨id, c.rts.isSome⟩ := by
  rw [h.outside, (hremembers.faceReceiving u _).2, hremembers.interrupt_startReceiving,
    h.flowControl]

end SerialLine.Pl011
