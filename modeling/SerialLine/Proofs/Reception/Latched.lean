import SerialLine.Proofs.Reception.Mask
import SerialLine.Rig.RegisterBlock
/-! # A simulated block with a mask

The simulated register block as a window with a mask behind it.

* `Latched`: a block together with what its driver remembers.
* `window`: its mask register reads back what was written to it.
* `suits_platform`: a platform that serves the interrupt in the background of waits suits reception.
-/
set_option autoImplicit false

namespace SerialLine

namespace RegisterBlock

open Pl011

variable (b : RegisterBlock)

theorem words_read (now offset : Nat) : (b.read now offset).2.words = b.words := by
  unfold RegisterBlock.read
  split_ifs
  · rfl
  · cases b.queue with
    | nil => rfl
    | cons word rest => rfl
  · rfl
  · rfl
  · rfl
  · rfl

theorem words_receive (byte : UInt8) : (b.receive byte).words = b.words := by
  unfold RegisterBlock.receive
  by_cases hplain : b.plain = true
  · rw [if_pos hplain]
  · rw [if_neg hplain]
    by_cases hfull : queueSize ≤ b.queue.length
    · rw [if_pos hfull]
    · rw [if_neg hfull]

/-- A write either keeps its word or leaves the words alone. -/
theorem words_write (offset : Nat) (word : UInt32) :
    (b.write offset word).words = b.words.setIfInBounds (offset / 4) word ∨
      offset ∈ [dr, icr] ∧ (b.write offset word).words = b.words := by
  unfold RegisterBlock.write
  split_ifs with hplain hdata hloop hclear
  · exact .inl rfl
  · exact .inr ⟨by simp [hdata], b.words_receive _⟩
  · exact .inr ⟨by simp [hdata], rfl⟩
  · exact .inr ⟨by simp [hclear], rfl⟩
  · exact .inl rfl

theorem size_write (offset : Nat) (word : UInt32) :
    (b.write offset word).words.size = b.words.size := by
  rcases b.words_write offset word with hwords | ⟨-, hwords⟩
  · rw [hwords, Array.size_setIfInBounds]
  · rw [hwords]

/-- The registers that read as they are stored, whatever kind of block it is. -/
theorem read_stored {offset : Nat} (hoffset : offset ∉ [dr, fr, ris, mis]) (now : Nat) :
    (b.read now offset).1 = b.stored offset := by
  simp only [List.mem_cons, List.not_mem_nil, or_false, not_or] at hoffset
  obtain ⟨hdata, hflags, hraised, hpassed⟩ := hoffset
  unfold RegisterBlock.read
  rw [if_neg hdata, if_neg hflags, if_neg hraised, if_neg hpassed]
  split_ifs
  · rfl
  · rfl

theorem stored_read (now offset other : Nat) : (b.read now other).2.stored offset = b.stored offset := by
  rw [stored, words_read, stored]

theorem stored_write_self {offset : Nat} (hoffset : offset ∉ [dr, icr])
    (hsize : offset / 4 < b.words.size) (word : UInt32) :
    (b.write offset word).stored offset = word := by
  rcases b.words_write offset word with hwords | ⟨hother, -⟩
  · simp [stored, hwords, hsize]
  · exact absurd hother hoffset

theorem stored_write_other {offset other : Nat} (hother : other / 4 ≠ offset / 4) (word : UInt32) :
    (b.write other word).stored offset = b.stored offset := by
  rcases b.words_write other word with hwords | ⟨-, hwords⟩
  · simp only [stored, hwords, Array.getD_eq_getD_getElem?]
    rw [Array.getElem?_setIfInBounds_ne hother]
  · rw [stored, hwords, stored]

end RegisterBlock

namespace Pl011

/-- A new block has a mask register. -/
theorem mask_lt_size : imsc / 4 < ({} : RegisterBlock).words.size := by decide

/-- A simulated block that has a mask register, with what its driver remembers. -/
structure Latched where
  block : RegisterBlock
  hasMask : imsc / 4 < block.words.size
  chip : Chip

namespace Latched

/-- Reads a register. The clock of the block stands still. -/
def read (offset : Nat) : StateM Latched UInt32 := fun s =>
  ((s.block.read 0 offset).1,
    { s with
      block := (s.block.read 0 offset).2
      hasMask := by rw [s.block.words_read]; exact s.hasMask })

def write (offset : Nat) (word : UInt32) : StateM Latched Unit := fun s =>
  ((), { s with
    block := s.block.write offset word
    hasMask := by rw [s.block.size_write]; exact s.hasMask })

def registers : Registers Latched where
  read := read
  write := write

def place : Place Latched Chip where
  get s := s.chip
  set c s := { s with chip := c }

/-- A new block, whose driver knows its clock. -/
def fresh : Latched := { block := {}, hasMask := mask_lt_size, chip := { clock := standardClock } }

def window : MaskedWindow registers place where
  chip_set _ _ := rfl
  chip_read _ _ := rfl
  chip_write _ _ _ := rfl
  mask s := s.block.stored imsc
  mask_set _ _ := rfl
  read_mask s := s.block.read_stored (by decide) 0
  mask_read offset s := s.block.stored_read 0 imsc offset
  mask_write word s := s.block.stored_write_self (by decide) s.hasMask word
  mask_write_other offset word s hoffset :=
    s.block.stored_write_other (by revert offset; decide) word

variable {id : BufferId} {hold : Bool}

def receive (byte : UInt8) (s : Latched) : Latched :=
  { s with
    block := s.block.receive byte
    hasMask := by rw [s.block.words_receive]; exact s.hasMask }

theorem calm_receive (byte : UInt8) (b : Bench Latched) :
    window.Calm id b { b with outside := b.outside.receive byte } := by
  refine ⟨fun h => h, rfl, ?_, fun _ h => h⟩
  show (b.outside.block.receive byte).stored imsc = _
  rw [RegisterBlock.stored, b.outside.block.words_receive]
  rfl

/-- Serves the interrupt as it is installed. -/
def serve (b : Bench Latched) : Unit × Bench Latched :=
  match b.outside.chip.interrupt with
  | none => ((), b)
  | some i => ((), (i.serve registers RegisterBlock.queueSize.succ b).2)

theorem meanwhile_serve {b b' : Bench Latched} (h : window.Meanwhile id b b') :
    window.Meanwhile id b (serve b').2 := by
  unfold serve
  cases hinstalled : b'.outside.chip.interrupt with
  | none => exact h
  | some i => exact .serve _ h hinstalled

/-- A platform whose clock stands still and that serves the interrupt in every round of a wait. -/
def platform (patience : Nat) : Platform Latched where
  ticks := pure 0
  background := serve
  patience := patience

theorem suits_platform (patience : Nat) : window.Suits id hold (platform patience) where
  ticks b _ := .refl b
  background b _ := meanwhile_serve (.refl b)
  isInterrupted b _ := .refl b

end Latched
end Pl011
end SerialLine
