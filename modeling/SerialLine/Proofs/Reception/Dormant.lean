import SerialLine.Proofs.Reception.Listening
import SerialLine.Proofs.Reception.Window
import SerialLine.Proofs.Registers.Rates
/-! # Reception that was stopped

What is left of reception after it was stopped: services of the interrupt that someone still holds.

* `GatedWindow`: a mask, a receive queue, and interrupts that are passed on only through the mask.
* `Dormant`: the interrupts of reception are masked, and the driver does not know how to serve them.
* `Dormant.inert`: on a dormant bench every service of the interrupt does nothing, whoever asks for it.
* `Operation`: all that a driver can be asked to do but to start reception. `Dormant.operation`: none of it
  ends dormancy.
* `Aftermath.dormant`: neither does any number of services, operations and other things in any order.
-/
set_option autoImplicit false

namespace SerialLine.Pl011

variable {σ : Type}

/-- What stopped reception relies on of a register window and of the place where the driver remembers
things. Words may arrive at every access. -/
structure GatedWindow (r : Registers σ) (chip : Place σ Chip) extends MaskedWindow r chip where
  queue : ReceiveQueue σ
  /-- An interrupt is passed on if it is raised and the mask lets it through. -/
  read_mis : ∀ s, (r.read mis s).1 = (r.read ris s).1 &&& mask s
  /-- Looking at the interrupts and clearing them takes no word out of the queue. -/
  look_mis : ∀ s, queue.Arrives s (r.read mis s).2
  write_icr : ∀ word s, queue.Arrives s (r.write icr word s).2

namespace GatedWindow

variable {r : Registers σ} {chip : Place σ Chip} {W : GatedWindow r chip} {b b' b'' : Bench σ}

/-! ## Dormant benches -/

/-- No interrupt of reception is let through, and the driver does not know how one is served. -/
structure Dormant (W : GatedWindow r chip) (b : Bench σ) : Prop where
  masked : W.mask b.outside &&& intAll = 0
  interrupt : (chip.get b.outside).interrupt = none

/-- A service of the interrupt tells that it moved nothing, and it moved nothing: no word was taken out of
the queue, all buffers are what they were, and the interrupts of reception are masked. -/
structure Inert (W : GatedWindow r chip) (i : Interrupt) (rounds : Nat) (b : Bench σ) : Prop where
  told : (i.serve r rounds b).1 = some 0
  arrives : W.queue.Arrives b.outside (i.serve r rounds b).2.outside
  buffers : (i.serve r rounds b).2.buffers = b.buffers
  masked : W.mask (i.serve r rounds b).2.outside &&& intAll = 0

/-- A change that leaves the mask and the driver's memory alone, whatever it does to queue and buffers. -/
structure Beside (W : GatedWindow r chip) (b b' : Bench σ) : Prop where
  chip : chip.get b'.outside = chip.get b.outside
  mask : W.mask b'.outside = W.mask b.outside

theorem Dormant.beside (h : W.Dormant b) (hbeside : W.Beside b b') : W.Dormant b' where
  masked := by rw [hbeside.mask, h.masked]
  interrupt := by rw [hbeside.chip, h.interrupt]

theorem beside_of_calm {id : BufferId} (h : W.Calm id b b') : W.Beside b b' := ⟨h.chip, h.mask⟩

theorem Dormant.serve (h : W.Dormant b) (i : Interrupt) (rounds : Nat) :
    ∃ raised, i.serve r rounds b =
      (some 0, { b with outside := (r.write icr raised (r.read mis b.outside).2).2 }) := by
  have hlook : Bench.outsideDo (r.read mis) b =
      ((r.read mis b.outside).1, { b with outside := (r.read mis b.outside).2 }) := rfl
  have hidle : (r.read mis b.outside).1 &&& intAll = 0 := by
    rw [W.read_mis, UInt32.and_assoc, h.masked, UInt32.and_zero]
  exact ⟨_, Interrupt.serve_of_idle hlook hidle⟩

theorem Dormant.beside_serve (h : W.Dormant b) (i : Interrupt) (rounds : Nat) :
    W.Beside b (i.serve r rounds b).2 := by
  obtain ⟨raised, hserve⟩ := h.serve i rounds
  rw [hserve]
  refine ⟨(W.chip_write _ _ _).trans (W.chip_read _ _), ?_⟩
  exact (W.mask_write_other _ _ _ (by decide)).trans (W.mask_read _ _)

theorem Dormant.inert (h : W.Dormant b) (i : Interrupt) (rounds : Nat) : W.Inert i rounds b := by
  have hmasked := (h.beside (h.beside_serve i rounds)).masked
  obtain ⟨raised, hserve⟩ := h.serve i rounds
  refine ⟨?_, ?_, ?_, hmasked⟩
  · rw [hserve]
  · rw [hserve]
    exact (W.look_mis _).trans (W.write_icr _ _)
  · rw [hserve]

/-! ## The operations of the driver -/

/-- Stopping reception makes any bench dormant. -/
theorem dormant_stopReceiving (W : GatedWindow r chip) (b : Bench σ) :
    W.Dormant (stopReceiving r chip b).2 where
  masked := by
    show W.mask (chip.set _ (r.write imsc ((r.read imsc b.outside).1 &&& ~~~intAll) _).2) &&& intAll = 0
    rw [W.mask_set, W.mask_write, UInt32.and_assoc]
    simp
  interrupt := congrArg Chip.interrupt (W.chip_set _ _)

theorem dormant_disable (W : GatedWindow r chip) (b : Bench σ) : W.Dormant (disable r chip b).2 where
  masked := by
    show W.mask (chip.set _ (r.write cr 0 (r.write icr icrAll (r.write imsc 0 _).2).2).2) &&& intAll = 0
    rw [W.mask_set, W.mask_write_other _ _ _ (by decide), W.mask_write_other _ _ _ (by decide),
      W.mask_write]
    decide
  interrupt := congrArg Chip.interrupt (W.chip_set _ _)

/-- A block that is programmed has every interrupt masked, and what the driver knows of serving them is
not touched. -/
theorem Dormant.configure (h : W.Dormant b) (s : LineSettings) : W.Dormant (configure r chip s b).2 := by
  cases hplan : planFor (chip.get b.outside).clock s with
  | error e =>
    rw [configure_of_refused hplan]
    exact h
  | ok plan =>
    obtain ⟨divisor, line⟩ := plan
    obtain ⟨log, hend⟩ := configure_of_planned (r := r) hplan
    rw [hend]
    refine ⟨?_, ?_⟩
    · show W.mask (chip.set _ (r.write cr _ (r.write imsc 0 _).2).2) &&& intAll = 0
      rw [W.mask_set, W.mask_write_other _ _ _ (by decide), W.mask_write]
      decide
    · exact (congrArg Chip.interrupt (W.toRemembers.chip_configured s divisor line b.outside)).trans
        h.interrupt

theorem Dormant.resumeReceiving (h : W.Dormant b) : (resumeReceiving r chip b).2 = b := by
  have hlook : remembered chip b = (chip.get b.outside, b) := rfl
  simp only [Pl011.resumeReceiving, bind, StateT.bind, hlook, h.interrupt]
  rfl

/-- What a driver can be asked to do, but to start reception. -/
inductive Operation where
  | configure (settings : LineSettings)
  | setBaudrate (rate : UInt32)
  | stopReceiving
  | resumeReceiving
  | receivedCount
  | takeWord
  | isReady
  | sendWord (word : UInt16)
  | isIdle
  | setDirection (high : Bool)
  | disable

/-- The bench after an operation. -/
def Operation.after (d : Driver σ) (b : Bench σ) : Operation → Bench σ
  | configure settings => (d.configure settings b).2
  | setBaudrate rate => (d.setBaudrate rate b).2
  | stopReceiving => (d.stopReceiving b).2
  | resumeReceiving => (d.resumeReceiving b).2
  | receivedCount => (d.receivedCount b).2
  | takeWord => (d.takeWord b).2
  | isReady => (d.isReady b).2
  | sendWord word => (d.sendWord word b).2
  | isIdle => (d.isIdle b).2
  | setDirection high => (d.setDirection high b).2
  | disable => (d.disable b).2

theorem Dormant.operation (h : W.Dormant b) (op : Operation) :
    W.Dormant (op.after (driver r chip) b) := by
  have hcalm {α : Type} {f : StateM (Bench σ) α} (hf : Obeys (W.Calm ⟨0⟩) f) : W.Dormant (f b).2 :=
    h.beside (beside_of_calm (hf b))
  have honward := MaskedWindow.onward_calm W.toMaskedWindow ⟨0⟩
  -- what programs the mask is looked at for itself; everything else is calm, for whatever buffer
  cases op with
  | configure settings => exact h.configure settings
  | setBaudrate rate => exact hcalm (MaskedWindow.calm_setBaudrate rate)
  | stopReceiving => exact dormant_stopReceiving W b
  | resumeReceiving =>
    show W.Dormant (Pl011.resumeReceiving r chip b).2
    rw [h.resumeReceiving]
    exact h
  | receivedCount => exact hcalm (obeys_receivedCount honward MaskedWindow.calm_read chip)
  | takeWord => exact hcalm (obeys_takeWord honward MaskedWindow.calm_read)
  | isReady => exact hcalm (MaskedWindow.calm_readFlag _)
  | sendWord word => exact hcalm (MaskedWindow.calm_sendWord word)
  | isIdle => exact hcalm (MaskedWindow.calm_readFlag _)
  | setDirection high => exact hcalm (MaskedWindow.calm_setDirection high)
  | disable => exact dormant_disable W b

/-! ## After reception was stopped -/

/-- What can become of a bench: the interrupt is served in whatever way and for any number of rounds, the
driver is asked for anything but to start reception, and other things happen that leave the mask and the
driver's memory alone. -/
inductive Aftermath (W : GatedWindow r chip) : Bench σ → Bench σ → Prop where
  | refl (b : Bench σ) : Aftermath W b b
  | beside {b b' b'' : Bench σ} (h : Aftermath W b b') (hbeside : W.Beside b' b'') : Aftermath W b b''
  | serve {b b' : Bench σ} (h : Aftermath W b b') (i : Interrupt) (rounds : Nat) :
      Aftermath W b (i.serve r rounds b').2
  | operation {b b' : Bench σ} (h : Aftermath W b b') (op : Operation) :
      Aftermath W b (op.after (driver r chip) b')

theorem Aftermath.trans (h : W.Aftermath b b') (h' : W.Aftermath b' b'') : W.Aftermath b b'' := by
  induction h' with
  | refl => exact h
  | beside _ hbeside ih => exact .beside ih hbeside
  | serve _ i rounds ih => exact .serve ih i rounds
  | operation _ op ih => exact .operation ih op

theorem onward_aftermath (W : GatedWindow r chip) : Onward W.Aftermath where
  refl := .refl
  trans := .trans
  log b _ := .beside (.refl b) ⟨rfl, rfl⟩

theorem Aftermath.dormant (h : W.Aftermath b b') (hb : W.Dormant b) : W.Dormant b' := by
  induction h with
  | refl => exact hb
  | beside _ hbeside ih => exact ih.beside hbeside
  | serve _ i rounds ih => exact ih.beside (ih.beside_serve i rounds)
  | operation _ op ih => exact ih.operation op

end GatedWindow
end SerialLine.Pl011
