import SerialLine.Proofs.Lines.Frame
import SerialLine.Proofs.Reception.Installing
import SerialLine.Proofs.Reception.Serving
/-! # The interrupt mask of reception

When the interrupts of received characters are masked, and what lets them through again.

* `MaskedWindow`: the registers have a mask behind them, which reads back what was written to it.
* `Calm`: a change between two benches that leaves the mask alone and makes no room in the buffer.
* `Attentive`: reception is installed, and the interrupts of received characters are masked only while
  the buffer is full.
* `attentive_serve`, `Meanwhile.attentive`: serving the interrupt keeps a bench attentive, also as far as
  it has come after any number of rounds, and so does all that goes on meanwhile.
* `Installed.resume`: resuming makes a bench attentive on which reception is installed.
-/
set_option autoImplicit false

namespace SerialLine

theorem RingBuffer.isFull_iff {ring : RingBuffer} : ring.isFull = true ↔ ring.space = 0 := beq_iff_eq

theorem RingBuffer.isFull_push {ring : RingBuffer} (h : ring.isFull = true) (word : UInt16) :
    (ring.push word).2.isFull = true := by
  have hspace : ring.capacity - ring.available = 0 := RingBuffer.isFull_iff.mp h
  rw [RingBuffer.push, if_pos (by omega)]
  exact h

namespace Pl011

variable {σ α : Type}

/-! ## Masks -/

/-- A mask lets every one of the given interrupts through. -/
def Passes (mask bits : UInt32) : Prop := mask &&& bits = bits

instance (mask bits : UInt32) : Decidable (Passes mask bits) :=
  inferInstanceAs (Decidable (mask &&& bits = bits))

theorem Passes.trans {mask more bits : UInt32} (h : Passes mask more) (h' : Passes more bits) :
    Passes mask bits := by
  unfold Passes at h h' ⊢
  rw [← h', ← UInt32.and_assoc, h]

theorem passes_or_right {more bits : UInt32} (h : Passes more bits) (mask : UInt32) :
    Passes (mask ||| more) bits := by
  unfold Passes at h ⊢
  rw [← UInt32.toBitVec_inj, UInt32.toBitVec_and] at h ⊢
  rw [UInt32.toBitVec_or]
  ext i hi
  have hi' := congrArg (fun v : BitVec 32 => v[i]) h
  simp only [BitVec.getElem_and, BitVec.getElem_or] at hi' ⊢
  rw [Bool.and_or_distrib_right, hi', Bool.or_eq_right_iff_imp, Bool.and_eq_true]
  exact And.right

theorem Passes.or {mask bits : UInt32} (h : Passes mask bits) (more : UInt32) :
    Passes (mask ||| more) bits := by
  rw [UInt32.or_comm]
  exact passes_or_right h more

/-- What the mask of a block relies on of a register window and of the place where the driver remembers
things. -/
structure MaskedWindow (r : Registers σ) (chip : Place σ Chip) extends Remembers r chip where
  mask : σ → UInt32
  mask_set : ∀ c s, mask (chip.set c s) = mask s
  /-- The mask register reads back the mask. -/
  read_mask : ∀ s, (r.read imsc s).1 = mask s
  mask_read : ∀ offset s, mask (r.read offset s).2 = mask s
  /-- The mask is what was last written to its register. -/
  mask_write : ∀ word s, mask (r.write imsc word s).2 = word
  mask_write_other : ∀ offset word s, offset ∈ [dr, ibrd, fbrd, lcrh, cr, icr] →
    mask (r.write offset word s).2 = mask s

namespace MaskedWindow

variable {r : Registers σ} {chip : Place σ Chip} {W : MaskedWindow r chip} {id : BufferId}

theorem mask_setBits (W : MaskedWindow r chip) (bits : UInt32) (s : σ) :
    W.mask (r.setBits imsc bits s).2 = W.mask s ||| bits := by
  show W.mask (r.write imsc ((r.read imsc s).1 ||| bits) (r.read imsc s).2).2 = _
  rw [W.mask_write, W.read_mask]

/-! ## Calm changes -/

/-- The mask and the driver's memory are what they were, and the buffer has not got room. -/
structure Calm (W : MaskedWindow r chip) (id : BufferId) (b b' : Bench σ) : Prop where
  holds : b.buffers.Holds id → b'.buffers.Holds id
  chip : chip.get b'.outside = chip.get b.outside
  mask : W.mask b'.outside = W.mask b.outside
  full : b.buffers.Holds id → (b.buffers.ring id).isFull = true → (b'.buffers.ring id).isFull = true

theorem onward_calm (W : MaskedWindow r chip) (id : BufferId) : Onward (W.Calm id) where
  refl _ := ⟨fun h => h, rfl, rfl, fun _ h => h⟩
  trans h h' := ⟨fun hb => h'.holds (h.holds hb), h'.chip.trans h.chip, h'.mask.trans h.mask,
    fun hb hfull => h'.full (h.holds hb) (h.full hb hfull)⟩
  log _ _ := ⟨fun h => h, rfl, rfl, fun _ h => h⟩

/-- An act on the outside that leaves the mask and the driver's memory alone. -/
def Leaves (W : MaskedWindow r chip) (f : StateM σ α) : Prop :=
  ∀ s, chip.get (f s).2 = chip.get s ∧ W.mask (f s).2 = W.mask s

variable {β : Type}

theorem leaves_pure (a : α) : W.Leaves (pure a : StateM σ α) := fun _ => ⟨rfl, rfl⟩

theorem Leaves.bind {f : StateM σ α} {g : α → StateM σ β} (hf : W.Leaves f)
    (hg : ∀ a, W.Leaves (g a)) : W.Leaves (f >>= g) := by
  intro s
  obtain ⟨hchip, hmask⟩ := hf s
  obtain ⟨hchip', hmask'⟩ := hg (f s).1 (f s).2
  exact ⟨hchip'.trans hchip, hmask'.trans hmask⟩

theorem leaves_read (offset : Nat) : W.Leaves (r.read offset) :=
  fun s => ⟨W.chip_read offset s, W.mask_read offset s⟩

theorem leaves_write {offset : Nat} (h : offset ∈ [dr, ibrd, fbrd, lcrh, cr, icr])
    (word : UInt32) : W.Leaves (r.write offset word) :=
  fun s => ⟨W.chip_write offset word s, W.mask_write_other offset word s h⟩

theorem calm_outsideDo {f : StateM σ α} (h : W.Leaves f) : Obeys (W.Calm id) (Bench.outsideDo f) :=
  fun b => ⟨fun hb => hb, (h b.outside).1, (h b.outside).2, fun _ hfull => hfull⟩

/-- What is done to the buffer is calm if a full one is full again afterwards. -/
theorem calm_ringDo {f : RingBuffer → α × RingBuffer} {b : Bench σ}
    (hf : (b.buffers.ring id).isFull = true → (f (b.buffers.ring id)).2.isFull = true) :
    W.Calm id b (Bench.ringDo id f b).2 := by
  refine ⟨fun hb => hb.set _, rfl, rfl, fun hb hfull => ?_⟩
  show ((b.buffers.set id (f (b.buffers.ring id)).2).ring id).isFull = true
  rw [RxBuffers.ring_set_self hb]
  exact hf hfull

theorem calm_moveOne (hold : Bool) : Obeys (W.Calm id) (Interrupt.moveOne ⟨id, hold⟩ r) :=
  Interrupt.obeys_moveOne (onward_calm W id) (calm_outsideDo (leaves_read _))
    (fun _ => calm_ringDo fun hfull => hfull)
    (fun _ _ => calm_ringDo fun hfull => RingBuffer.isFull_push hfull _)

/-! ## Attentive benches -/

/-- The interrupts of received characters are masked only while the buffer is full. -/
def Listens (W : MaskedWindow r chip) (id : BufferId) (b : Bench σ) : Prop :=
  W.mask b.outside &&& intReceive = 0 ∨ W.mask b.outside &&& intTimeout = 0 →
    (b.buffers.ring id).isFull = true

/-- Every interrupt of reception is let through. -/
def Unmasked (W : MaskedWindow r chip) (b : Bench σ) : Prop := Passes (W.mask b.outside) intAll

/-- The buffer exists, and the driver has the interrupt of the block served into it. If that does not
hold characters back, no interrupt of reception is masked. -/
structure Installed (W : MaskedWindow r chip) (id : BufferId) (hold : Bool) (b : Bench σ) : Prop where
  holds : b.buffers.Holds id
  interrupt : (chip.get b.outside).interrupt = some ⟨id, hold⟩
  unmasked : hold = false → W.Unmasked b

structure Attentive (W : MaskedWindow r chip) (id : BufferId) (hold : Bool) (b : Bench σ) : Prop
    extends W.Installed id hold b where
  listens : W.Listens id b

variable {hold : Bool} {b b' : Bench σ}

theorem listens_of_passes (h : Passes (W.mask b.outside) intData) : W.Listens id b := by
  rintro (hreceive | htimeout)
  · rw [h.trans (by decide : Passes intData intReceive)] at hreceive
    exact absurd hreceive (by decide)
  · rw [h.trans (by decide : Passes intData intTimeout)] at htimeout
    exact absurd htimeout (by decide)

theorem Installed.calm (h : W.Installed id hold b) (hcalm : W.Calm id b b') :
    W.Installed id hold b' := by
  refine ⟨hcalm.holds h.holds, ?_, fun hhold => ?_⟩
  · rw [hcalm.chip]
    exact h.interrupt
  · rw [Unmasked, hcalm.mask]
    exact h.unmasked hhold

theorem Attentive.calm (h : W.Attentive id hold b) (hcalm : W.Calm id b b') :
    W.Attentive id hold b' := by
  refine ⟨h.toInstalled.calm hcalm, fun hmasked => ?_⟩
  rw [hcalm.mask] at hmasked
  exact hcalm.full h.holds (h.listens hmasked)

/-- Whatever is done with the buffer, reception stays installed. -/
theorem Installed.ringDo (h : W.Installed id hold b) (f : RingBuffer → α × RingBuffer) :
    W.Installed id hold (Bench.ringDo id f b).2 :=
  ⟨h.holds.set _, h.interrupt, h.unmasked⟩

theorem Installed.resume (h : W.Installed id hold b) :
    W.Attentive id hold (resumeReceiving r chip b).2 := by
  have hresume : (resumeReceiving r chip b).2 =
      { b with outside := (r.setBits imsc intData b.outside).2 } := by
    have hlook : remembered chip b = (chip.get b.outside, b) := rfl
    simp only [resumeReceiving, bind, StateT.bind, hlook, h.interrupt, Option.isSome_some, if_true]
    rfl
  have hmask := W.mask_setBits intData b.outside
  rw [hresume]
  refine ⟨⟨h.holds, ?_, fun hhold => ?_⟩, listens_of_passes ?_⟩
  · exact (congrArg Chip.interrupt (W.chip_setBits _ _ _)).trans h.interrupt
  · rw [Unmasked, hmask]
    exact (h.unmasked hhold).or _
  · rw [hmask]
    exact passes_or_right (by decide) _

/-! ## Serving the interrupt -/

/-- Masking is right while the buffer is full. -/
theorem Attentive.mask_full (h : W.Attentive id true b) (hfull : (b.buffers.ring id).isFull = true)
    (bits : UInt32) : W.Attentive id true (Bench.outsideDo (r.clearBits imsc bits) b).2 :=
  ⟨⟨h.holds, (congrArg Chip.interrupt (W.chip_clearBits _ _ _)).trans h.interrupt, nofun⟩,
    fun _ => hfull⟩

theorem attentive_moveAll (rounds count : Nat) (h : W.Attentive id hold b) :
    W.Attentive id hold (Interrupt.moveAll ⟨id, hold⟩ r rounds count b).2 := by
  induction rounds generalizing count b with
  | zero => exact h
  | succ rounds ih =>
    rcases hlook : Bench.outsideDo (r.read fr) b with ⟨flags, b₁⟩
    have hcalm : W.Calm id b (Bench.outsideDo (r.read fr) b).2 := calm_outsideDo (leaves_read _) b
    rw [hlook] at hcalm
    have h₁ := h.calm hcalm
    by_cases hempty : flags &&& frRxEmpty ≠ 0
    · rw [Interrupt.moveAll_of_empty hlook hempty]
      exact h₁
    · have hwaiting : flags &&& frRxEmpty = 0 := Decidable.not_not.mp hempty
      by_cases hfull : hold = true ∧ (b₁.buffers.ring id).space = 0
      · obtain ⟨rfl, hspace⟩ := hfull
        rw [Interrupt.moveAll_of_held hlook hwaiting rfl hspace]
        exact h₁.mask_full (RingBuffer.isFull_iff.mpr hspace) _
      · rcases hmove : Interrupt.moveOne ⟨id, hold⟩ r b₁ with ⟨yes, b₂⟩
        have hmoved : W.Calm id b₁ (Interrupt.moveOne ⟨id, hold⟩ r b₁).2 := calm_moveOne hold b₁
        rw [hmove] at hmoved
        rw [Interrupt.moveAll_of_moved hlook hwaiting (fun hhold hspace => hfull ⟨hhold, hspace⟩) hmove]
        exact ih _ (h₁.calm hmoved)

theorem attentive_serve (rounds : Nat) (h : W.Attentive id hold b) :
    W.Attentive id hold (Interrupt.serve ⟨id, hold⟩ r rounds b).2 := by
  rcases hlook : Bench.outsideDo (r.read mis) b with ⟨raised, b₁⟩
  have hcalm : W.Calm id b (Bench.outsideDo (r.read mis) b).2 := calm_outsideDo (leaves_read _) b
  rw [hlook] at hcalm
  have h₁ := h.calm hcalm
  have hclear (b' : Bench σ) : W.Calm id b' (Bench.outsideDo (r.write icr raised) b').2 :=
    calm_outsideDo (leaves_write (by decide) _) b'
  by_cases hraised : raised &&& intAll ≠ 0
  · have hmove := attentive_moveAll rounds 0 h₁
    rcases hmoved : Interrupt.moveAll ⟨id, hold⟩ r rounds 0 b₁ with ⟨count, b₂⟩
    rw [hmoved] at hmove
    cases count with
    | none =>
      rw [Interrupt.serve_of_unfinished hlook hraised hmoved]
      exact hmove
    | some n =>
      rw [Interrupt.serve_of_moved hlook hraised hmoved]
      exact hmove.calm (hclear b₂)
  · rw [Interrupt.serve_of_idle hlook (Decidable.not_not.mp hraised)]
    exact h₁.calm (hclear b₁)

/-! ## Between and inside calls -/

/-- What goes on between calls and in the background of waits: the interrupt is served as it is
installed, if only for some rounds, and other things happen that leave the mask alone and take nothing
out of the buffer. -/
inductive Meanwhile (W : MaskedWindow r chip) (id : BufferId) : Bench σ → Bench σ → Prop where
  | refl (b : Bench σ) : Meanwhile W id b b
  | calm {b b' b'' : Bench σ} (h : Meanwhile W id b b') (hcalm : W.Calm id b' b'') :
      Meanwhile W id b b''
  | serve {b b' : Bench σ} {i : Interrupt} (rounds : Nat) (h : Meanwhile W id b b')
      (hinstalled : (chip.get b'.outside).interrupt = some i) :
      Meanwhile W id b (i.serve r rounds b').2

theorem Meanwhile.attentive (h : W.Meanwhile id b b') (hb : W.Attentive id hold b) :
    W.Attentive id hold b' := by
  induction h with
  | refl => exact hb
  | calm _ hcalm ih => exact ih.calm hcalm
  | serve rounds _ hinstalled ih =>
    obtain rfl := Option.some.inj (ih.interrupt.symm.trans hinstalled)
    exact attentive_serve rounds ih

/-- A platform on which nothing else goes on while a call waits or looks at the clock, once reception
is installed. -/
structure Suits (W : MaskedWindow r chip) (id : BufferId) (hold : Bool) (p : Platform σ) : Prop where
  ticks : ∀ b, W.Installed id hold b → W.Meanwhile id b (p.ticks b).2
  background : ∀ b, W.Installed id hold b → W.Meanwhile id b (p.background b).2
  isInterrupted : ∀ b, W.Installed id hold b → W.Meanwhile id b (p.isInterrupted b).2

end MaskedWindow
end Pl011
end SerialLine
