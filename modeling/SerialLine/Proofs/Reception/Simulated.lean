import Mathlib.Tactic.SplitIfs
import SerialLine.Proofs.Reception.Flow
import SerialLine.Rig.RegisterBlock
/-! # A simulated block behind a window

* `RegisterBlock.IsFree`: a block of a rig that behaves as a device. It has a receive queue that its data
  register takes from and its flags tell about.
* `Simulated.window`: such a block is a window with a receive queue.
* `Simulated.quiet_receive`, `Simulated.suits_platform`: receiving a character is quiet, and a platform
  that serves the interrupt in the background of waits suits reception.
-/
set_option autoImplicit false

namespace SerialLine

namespace RegisterBlock

open Pl011

/-- A block that is a device, not memory, and whose flags nothing forces. -/
structure IsFree (b : RegisterBlock) : Prop where
  plain : b.plain = false
  flagsSet : b.flagsSet = 0
  flagsClear : b.flagsClear = 0

variable {b : RegisterBlock} (now : Nat)

theorem IsFree.read (h : b.IsFree) (offset : Nat) : (b.read now offset).2.IsFree := by
  unfold RegisterBlock.read
  split_ifs
  · exact h
  · cases b.queue with
    | nil => exact h
    | cons word rest => exact ⟨h.plain, h.flagsSet, h.flagsClear⟩
  · exact h
  · exact h
  · exact h
  · exact h

theorem IsFree.receive (h : b.IsFree) (byte : UInt8) : (b.receive byte).IsFree := by
  unfold RegisterBlock.receive
  by_cases hfull : queueSize ≤ b.queue.length
  · rw [if_neg (by simp [h.plain]), if_pos hfull]
    exact ⟨h.plain, h.flagsSet, h.flagsClear⟩
  · rw [if_neg (by simp [h.plain]), if_neg hfull]
    exact ⟨h.plain, h.flagsSet, h.flagsClear⟩

theorem IsFree.write (h : b.IsFree) (offset : Nat) (word : UInt32) :
    (b.write offset word).IsFree := by
  unfold RegisterBlock.write
  split_ifs
  · exact ⟨h.plain, h.flagsSet, h.flagsClear⟩
  · exact h.receive _
  · exact h
  · exact h
  · exact ⟨h.plain, h.flagsSet, h.flagsClear⟩

theorem read_data (h : b.IsFree) {word : UInt32} {rest : List UInt32} (hqueue : b.queue = word :: rest) :
    b.read now dr = (word, { b with queue := rest }) := by
  unfold RegisterBlock.read
  rw [if_neg (by simp [h.plain]), if_pos rfl, hqueue]

theorem read_other {offset : Nat} (hoffset : offset ≠ dr) : (b.read now offset).2 = b := by
  unfold RegisterBlock.read
  split_ifs <;> rfl

theorem queue_write {offset : Nat} (hoffset : offset ≠ dr) (word : UInt32) :
    (b.write offset word).queue = b.queue := by
  unfold RegisterBlock.write
  split_ifs
  · rfl
  · rfl
  · rfl

theorem IsFree.queue_receive (h : b.IsFree) (byte : UInt8) :
    ∃ new, (b.receive byte).queue = b.queue ++ new := by
  unfold RegisterBlock.receive
  by_cases hfull : queueSize ≤ b.queue.length
  · rw [if_neg (by simp [h.plain]), if_pos hfull]
    exact ⟨[], (List.append_nil _).symm⟩
  · rw [if_neg (by simp [h.plain]), if_neg hfull]
    exact ⟨_, rfl⟩

theorem read_flags (h : b.IsFree) : (b.read now fr).1 &&& frRxEmpty = 0 ↔ b.queue ≠ [] := by
  have hread : (b.read now fr).1 = b.flags now := by
    unfold RegisterBlock.read
    rw [if_neg (by simp [h.plain]), if_neg (by decide), if_pos rfl]
  have hunforced : (b.read now fr).1 = frTxEmpty ||| (if b.queue.isEmpty then frRxEmpty else 0)
      ||| (if queueSize ≤ b.queue.length then frRxFull else 0)
      ||| (if now < b.busyUntil then frBusy else 0) := by
    rw [hread, flags, h.flagsSet, h.flagsClear]
    simp
  have hempty : (b.read now fr).1 &&& frRxEmpty = if b.queue.isEmpty then frRxEmpty else 0 := by
    rw [hunforced]
    split_ifs <;> rfl
  rw [hempty, ← List.isEmpty_eq_false_iff]
  cases b.queue.isEmpty with
  | true => decide
  | false => decide

/-- The interrupts that are passed on are those raised that the mask lets through. -/
theorem read_passed (h : b.IsFree) : (b.read now mis).1 = (b.read now ris).1 &&& b.stored imsc := by
  have hdevice : ¬ b.plain = true := by simp [h.plain]
  unfold RegisterBlock.read
  simp only [if_neg hdevice]
  rfl

end RegisterBlock

namespace Pl011

/-- A simulated block with what its driver remembers and the words that were taken from its queue. -/
structure Simulated where
  block : RegisterBlock
  isFree : block.IsFree
  chip : Chip
  gone : List UInt32 := []

namespace Simulated

/-- Reads a register. The clock of the block stands still. -/
def read (offset : Nat) : StateM Simulated UInt32 := fun s =>
  ((s.block.read 0 offset).1,
    { block := (s.block.read 0 offset).2
      isFree := s.isFree.read 0 offset
      chip := s.chip
      gone := if offset = dr then s.gone ++ s.block.queue.take 1 else s.gone })

def write (offset : Nat) (word : UInt32) : StateM Simulated Unit := fun s =>
  ((), { s with block := s.block.write offset word, isFree := s.isFree.write offset word })

def registers : Registers Simulated where
  read := read
  write := write

def place : Place Simulated Chip where
  get s := s.chip
  set c s := { s with chip := c }

def queue : ReceiveQueue Simulated where
  waiting s := s.block.queue
  accepted s := s.gone ++ s.block.queue

theorem arrives_of_append {s s' : Simulated} (hgone : s'.gone = s.gone)
    (hqueue : ∃ new, s'.block.queue = s.block.queue ++ new) : queue.Arrives s s' := by
  obtain ⟨new, hnew⟩ := hqueue
  refine ⟨new, hnew, ?_⟩
  show s'.gone ++ s'.block.queue = s.gone ++ s.block.queue ++ new
  rw [hgone, hnew, List.append_assoc]

theorem arrives_read {offset : Nat} (hoffset : offset ≠ dr) (s : Simulated) :
    queue.Arrives s (read offset s).2 := by
  refine arrives_of_append (if_neg hoffset) ⟨[], ?_⟩
  show (s.block.read 0 offset).2.queue = s.block.queue ++ []
  rw [RegisterBlock.read_other 0 hoffset, List.append_nil]

theorem arrives_write {offset : Nat} (hoffset : offset ≠ dr) (word : UInt32) (s : Simulated) :
    queue.Arrives s (write offset word s).2 := by
  refine arrives_of_append rfl ⟨[], ?_⟩
  show (s.block.write offset word).queue = s.block.queue ++ []
  rw [RegisterBlock.queue_write hoffset, List.append_nil]

def window : Window registers place where
  toReceiveQueue := queue
  chip_set _ _ := rfl
  chip_read _ _ := rfl
  chip_write _ _ _ := rfl
  read_data s word rest hqueue := by
    have hread := RegisterBlock.read_data 0 s.isFree hqueue
    refine ⟨congrArg Prod.fst hread, [], ?_, ?_⟩
    · show (s.block.read 0 dr).2.queue = rest ++ []
      rw [hread, List.append_nil]
    · show s.gone ++ s.block.queue.take 1 ++ (s.block.read 0 dr).2.queue =
        s.gone ++ s.block.queue ++ []
      rw [hread, show s.block.queue = word :: rest from hqueue]
      simp
  read_flags s := RegisterBlock.read_flags 0 s.isFree
  read_other offset s hoffset := arrives_read hoffset s
  write_other offset word s hoffset := arrives_write (by rintro rfl; revert hoffset; decide) word s
  rewrite_line s := arrives_write (by decide) _ _

variable {id : BufferId}

def receive (byte : UInt8) (s : Simulated) : Simulated :=
  { s with block := s.block.receive byte, isFree := s.isFree.receive byte }

theorem quiet_receive (byte : UInt8) (b : Bench Simulated) :
    window.Quiet id b { b with outside := b.outside.receive byte } :=
  ⟨rfl, fun h => h, rfl, arrives_of_append rfl (b.outside.isFree.queue_receive byte)⟩

/-- Serves the interrupt as it is installed. -/
def serve (b : Bench Simulated) : Unit × Bench Simulated :=
  match b.outside.chip.interrupt with
  | none => ((), b)
  | some i => ((), (i.serve registers RegisterBlock.queueSize.succ b).2)

theorem meanwhile_serve (b : Bench Simulated) : window.Meanwhile id b (serve b).2 := by
  unfold serve
  cases h : b.outside.chip.interrupt with
  | none => exact .refl b
  | some i => exact .serve _ (.refl b) h

/-- A platform whose clock stands still and that serves the interrupt in every round of a wait. -/
def platform (patience : Nat) : Platform Simulated where
  ticks := pure 0
  background := serve
  patience := patience

theorem suits_platform (patience : Nat) : window.Suits id (platform patience) where
  ticks b _ := .refl b
  background b _ := meanwhile_serve b
  isInterrupted b _ := .refl b

end Simulated
end Pl011
end SerialLine
