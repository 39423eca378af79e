import SerialLine.Proofs.Reception.Latched
/-! # Register files

Registers of a PL011 block that read back what was written to them, and what was written.

* `RegisterFile`: some of the registers keep their words, whatever else the block does.
* `word_writeAll`: after several writes a register holds the last word written to it, if there is one.
* `Registers.noted`: the same window, with every write noted together with the state that it found.
* `RegisterFile.noted`: the registers keep their words behind such a window as well.
* `Latched.file`: a simulated block keeps the words of all registers that program it.
-/
set_option autoImplicit false

namespace SerialLine.Pl011

variable {σ : Type} {r : Registers σ} {chip : Place σ Chip} {kept : List Nat}

/-- The registers of a block, by their offset. -/
def offsets : List Nat := [dr, rsr, fr, ibrd, fbrd, lcrh, cr, ifls, imsc, ris, mis, icr]

theorem Remembers.chip_writeAll (h : Remembers r chip) (writes : List (Nat × UInt32)) (s : σ) :
    chip.get (writeAll r writes s).2 = chip.get s := by
  induction writes generalizing s with
  | nil => rfl
  | cons write writes ih => exact (ih _).trans (h.chip_write _ _ _)

/-! ## Kept words -/

/-- The registers at the offsets `kept` read back what was last written to them, and only a write to a
register changes its word. -/
structure RegisterFile (r : Registers σ) (chip : Place σ Chip) (kept : List Nat)
    extends Remembers r chip where
  word : Nat → σ → UInt32
  word_set : ∀ offset c s, offset ∈ kept → word offset (chip.set c s) = word offset s
  read_word : ∀ offset s, offset ∈ kept → (r.read offset s).1 = word offset s
  word_read : ∀ offset other s, offset ∈ kept → word offset (r.read other s).2 = word offset s
  word_write : ∀ offset value s, offset ∈ kept → word offset (r.write offset value s).2 = value
  word_write_other : ∀ offset other value s, offset ∈ kept → other ∈ offsets → other ≠ offset →
    word offset (r.write other value s).2 = word offset s

/-- The word of a register after some writes, if it was `word` before. -/
def lastWritten (offset : Nat) (word : UInt32) : List (Nat × UInt32) → UInt32
  | [] => word
  | (other, value) :: rest => lastWritten offset (if other = offset then value else word) rest

/-- Every write goes to a register of the block. -/
def InRange (writes : List (Nat × UInt32)) : Prop := ∀ offset ∈ writes.map Prod.fst, offset ∈ offsets

theorem inRange_program (divisor : Divisor) (line control : UInt32) :
    InRange (programFor divisor line control) := by
  show ∀ offset ∈ [cr, lcrh, ibrd, fbrd, lcrh, icr, ifls, imsc, cr], offset ∈ offsets
  decide

theorem inRange_divisor (divisor : Divisor) :
    InRange [(ibrd, divisor.whole), (fbrd, divisor.fraction)] := by
  show ∀ offset ∈ [ibrd, fbrd], offset ∈ offsets
  decide

namespace RegisterFile

variable (F : RegisterFile r chip kept) {offset : Nat}

/-- Fewer registers keep their words as well. -/
def restrict {fewer : List Nat} (h : fewer ⊆ kept) : RegisterFile r chip fewer where
  toRemembers := F.toRemembers
  word := F.word
  word_set offset c s hfewer := F.word_set offset c s (h hfewer)
  read_word offset s hfewer := F.read_word offset s (h hfewer)
  word_read offset other s hfewer := F.word_read offset other s (h hfewer)
  word_write offset value s hfewer := F.word_write offset value s (h hfewer)
  word_write_other offset other value s hfewer := F.word_write_other offset other value s (h hfewer)

theorem word_writeTo (hkept : offset ∈ kept) {other : Nat} (hother : other ∈ offsets)
    (value : UInt32) (s : σ) :
    F.word offset (r.write other value s).2 = if other = offset then value else F.word offset s := by
  by_cases hsame : other = offset
  · rw [if_pos hsame, hsame, F.word_write _ _ _ hkept]
  · rw [if_neg hsame, F.word_write_other _ _ _ _ hkept hother hsame]

theorem word_writeAll (hkept : offset ∈ kept) {writes : List (Nat × UInt32)} (hwrites : InRange writes)
    (s : σ) : F.word offset (writeAll r writes s).2 = lastWritten offset (F.word offset s) writes := by
  induction writes generalizing s with
  | nil => rfl
  | cons write writes ih =>
    obtain ⟨hwrite, hrest⟩ := List.forall_mem_cons.mp hwrites
    rw [lastWritten, ← F.word_writeTo hkept hwrite]
    exact ih hrest _

theorem word_setBits {other : Nat} (hother : other ∈ kept) (bits : UInt32) (s : σ) :
    F.word other (r.setBits other bits s).2 = F.word other s ||| bits := by
  show F.word other (r.write other ((r.read other s).1 ||| bits) (r.read other s).2).2 = _
  rw [F.word_write _ _ _ hother, F.read_word _ _ hother]

theorem word_clearBits {other : Nat} (hother : other ∈ kept) (bits : UInt32) (s : σ) :
    F.word other (r.clearBits other bits s).2 = F.word other s &&& ~~~bits := by
  show F.word other (r.write other ((r.read other s).1 &&& ~~~bits) (r.read other s).2).2 = _
  rw [F.word_write _ _ _ hother, F.read_word _ _ hother]

/-- Writing back what a register holds changes nothing. -/
theorem word_rewrite (hkept : offset ∈ kept) {other : Nat} (hother : other ∈ kept)
    (hrange : other ∈ offsets) (s : σ) :
    F.word offset (r.write other (r.read other s).1 (r.read other s).2).2 = F.word offset s := by
  rw [F.word_writeTo hkept hrange, F.word_read _ _ _ hkept, F.read_word _ _ hother]
  by_cases hsame : other = offset
  · rw [if_pos hsame, hsame]
  · rw [if_neg hsame]

end RegisterFile

/-! ## Noted writes -/

/-- A write to a register, and the state that it found. -/
structure Entry (σ : Type) where
  before : σ
  offset : Nat
  value : UInt32

/-- What a write asked for. -/
def Entry.asked (e : Entry σ) : Nat × UInt32 := (e.offset, e.value)

/-- A state with the writes so far, oldest first. -/
structure Noted (σ : Type) where
  inner : σ
  writes : List (Entry σ) := []

def Registers.noted (r : Registers σ) : Registers (Noted σ) where
  read offset := fun s => ((r.read offset s.inner).1, { s with inner := (r.read offset s.inner).2 })
  write offset value := fun s => ((), ⟨(r.write offset value s.inner).2, s.writes ++ [⟨s.inner, offset, value⟩]⟩)

theorem offsets_writeAll (writes : List (Nat × UInt32)) (s : Noted σ) :
    ∃ new, (writeAll r.noted writes s).2.writes = s.writes ++ new ∧
      new.map Entry.offset = writes.map Prod.fst := by
  induction writes generalizing s with
  | nil => exact ⟨[], (List.append_nil _).symm, rfl⟩
  | cons write writes ih =>
    obtain ⟨new, hnew, hoffsets⟩ := ih (r.noted.write write.1 write.2 s).2
    refine ⟨⟨s.inner, write.1, write.2⟩ :: new, ?_, congrArg (write.1 :: ·) hoffsets⟩
    exact hnew.trans (List.append_assoc _ _ _)

def Place.noted (chip : Place σ Chip) : Place (Noted σ) Chip where
  get s := chip.get s.inner
  set c s := { s with inner := chip.set c s.inner }

theorem Remembers.noted (h : Remembers r chip) : Remembers r.noted chip.noted where
  chip_set c s := h.chip_set c s.inner
  chip_read offset s := h.chip_read offset s.inner
  chip_write offset word s := h.chip_write offset word s.inner

def RegisterFile.noted (F : RegisterFile r chip kept) : RegisterFile r.noted chip.noted kept where
  toRemembers := F.toRemembers.noted
  word offset s := F.word offset s.inner
  word_set offset c s := F.word_set offset c s.inner
  read_word offset s := F.read_word offset s.inner
  word_read offset other s := F.word_read offset other s.inner
  word_write offset value s := F.word_write offset value s.inner
  word_write_other offset other value s := F.word_write_other offset other value s.inner

/-! ## A simulated block -/

namespace Latched

/-- The registers of a simulated block that keep their words. -/
def latches : List Nat := [ibrd, fbrd, lcrh, cr, ifls, imsc]

theorem latches_distinct : ∀ offset ∈ latches, ∀ other ∈ offsets, other ≠ offset →
    other / 4 ≠ offset / 4 := by decide

theorem latches_stored : ∀ offset ∈ latches, offset ∉ [dr, fr, ris, mis] ∧ offset ∉ [dr, icr] ∧
    offset / 4 ≤ imsc / 4 := by decide

def file : RegisterFile registers place latches where
  toRemembers := window.toRemembers
  word offset s := s.block.stored offset
  word_set _ _ _ _ := rfl
  read_word offset s hkept := s.block.read_stored (latches_stored offset hkept).1 0
  word_read offset other s _ := s.block.stored_read 0 offset other
  word_write offset value s hkept := by
    obtain ⟨-, hplain, hsize⟩ := latches_stored offset hkept
    exact s.block.stored_write_self hplain (Nat.lt_of_le_of_lt hsize s.hasMask) value
  word_write_other offset other value s hkept hother hne :=
    s.block.stored_write_other (latches_distinct offset hkept other hother hne) value

end Latched
end SerialLine.Pl011
