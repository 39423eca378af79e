import SerialLine.Pl011
import SerialLine.Proofs.Lines.Frame
/-! # Rounds of serving the interrupt

Serving the receive interrupt of a PL011 block, taken apart, and taking a character without it.

* `moveAll_of_*`: the three ways a round goes. The block is empty, the interrupt is masked because the
  buffer is full, or a character is moved and another round follows.
* `serve_of_*`: there is nothing to do, the characters were moved, or that went on for too long.
* `obeys_serve`, `obeys_takeWord`: what every step of it obeys, a service obeys, and so does the taking of a
  character. `obeys_setBaudrate`, `obeys_resumeReceiving`: so do these.
-/
set_option autoImplicit false

namespace SerialLine.Pl011

variable {σ : Type}

namespace Interrupt

variable {i : Interrupt} {r : Registers σ} {rounds count : Nat} {b b₁ b₂ : Bench σ}
  {flags raised : UInt32}

theorem moveAll_of_empty (hlook : Bench.outsideDo (r.read fr) b = (flags, b₁))
    (hempty : flags &&& frRxEmpty ≠ 0) :
    i.moveAll r (rounds + 1) count b = (some count, b₁) := by
  simp only [moveAll, bind, StateT.bind, hlook, if_pos hempty]
  rfl

theorem moveAll_of_held (hlook : Bench.outsideDo (r.read fr) b = (flags, b₁))
    (hwaiting : flags &&& frRxEmpty = 0) (hhold : i.holdWhenFull = true)
    (hfull : (b₁.buffers.ring i.sink).space = 0) :
    i.moveAll r (rounds + 1) count b =
      (some count, (Bench.outsideDo (r.clearBits imsc intData) b₁).2) := by
  have hsome : ¬ flags &&& frRxEmpty ≠ 0 := Decidable.not_not.mpr hwaiting
  simp only [moveAll, bind, StateT.bind, hlook, if_neg hsome, if_pos hhold, Bench.ring, if_pos hfull]
  rfl

theorem moveAll_of_moved {yes : Bool} (hlook : Bench.outsideDo (r.read fr) b = (flags, b₁))
    (hwaiting : flags &&& frRxEmpty = 0)
    (hroom : i.holdWhenFull = true → (b₁.buffers.ring i.sink).space ≠ 0)
    (hmove : i.moveOne r b₁ = (yes, b₂)) :
    i.moveAll r (rounds + 1) count b =
      i.moveAll r rounds (if yes then count + 1 else count) b₂ := by
  have hsome : ¬ flags &&& frRxEmpty ≠ 0 := Decidable.not_not.mpr hwaiting
  by_cases hhold : i.holdWhenFull = true
  · simp only [moveAll, bind, StateT.bind, hlook, if_neg hsome, if_pos hhold, Bench.ring,
      if_neg (hroom hhold), hmove]
  · simp only [moveAll, bind, StateT.bind, hlook, if_neg hsome, if_neg hhold, hmove]

theorem serve_of_idle (hlook : Bench.outsideDo (r.read mis) b = (raised, b₁))
    (hidle : raised &&& intAll = 0) :
    i.serve r rounds b = (some 0, (Bench.outsideDo (r.write icr raised) b₁).2) := by
  have hnone : ¬ raised &&& intAll ≠ 0 := Decidable.not_not.mpr hidle
  simp only [serve, bind, StateT.bind, hlook, if_neg hnone]
  rfl

theorem serve_of_moved {n : Nat} (hlook : Bench.outsideDo (r.read mis) b = (raised, b₁))
    (hraised : raised &&& intAll ≠ 0) (hmoved : i.moveAll r rounds 0 b₁ = (some n, b₂)) :
    i.serve r rounds b = (some n, (Bench.outsideDo (r.write icr raised) b₂).2) := by
  simp only [serve, bind, StateT.bind, hlook, if_pos hraised, hmoved]
  rfl

theorem serve_of_unfinished (hlook : Bench.outsideDo (r.read mis) b = (raised, b₁))
    (hraised : raised &&& intAll ≠ 0) (hmoved : i.moveAll r rounds 0 b₁ = (none, b₂)) :
    i.serve r rounds b = (none, b₂) := by
  simp only [serve, bind, StateT.bind, hlook, if_pos hraised, hmoved]
  rfl

/-! ## What a service obeys -/

section
variable {R : Bench σ → Bench σ → Prop} (h : Onward R)
include h

theorem obeys_moveOne (hdata : Obeys R (Bench.outsideDo (r.read dr)))
    (hcount : Obeys R (Bench.countDropped (σ := σ) i.sink))
    (hpush : ∀ word, Obeys R (Bench.push (σ := σ) i.sink word)) : Obeys R (i.moveOne r) := by
  refine h.bind hdata fun word => ?_
  by_cases hover : word &&& drOverrun ≠ 0
  · simp only [if_pos hover]
    exact h.bind hcount fun _ => hpush _
  · simp only [if_neg hover]
    exact hpush _

variable (hlook : ∀ offset, offset ≠ dr → Obeys R (Bench.outsideDo (r.read offset)))
  (hmask : Obeys R (Bench.outsideDo (r.clearBits imsc intData))) (hmove : Obeys R (i.moveOne r))
include hlook hmask hmove

theorem obeys_moveAll (rounds count : Nat) : Obeys R (i.moveAll r rounds count) := by
  intro b
  induction rounds generalizing count b with
  | zero => exact h.refl b
  | succ rounds ih =>
    have hfirst := hlook fr (by decide) b
    rcases hflags : Bench.outsideDo (r.read fr) b with ⟨flags, b₁⟩
    rw [hflags] at hfirst
    by_cases hempty : flags &&& frRxEmpty ≠ 0
    · rw [moveAll_of_empty hflags hempty]
      exact hfirst
    · have hwaiting : flags &&& frRxEmpty = 0 := Decidable.not_not.mp hempty
      by_cases hfull : i.holdWhenFull = true ∧ (b₁.buffers.ring i.sink).space = 0
      · rw [moveAll_of_held hflags hwaiting hfull.1 hfull.2]
        exact h.trans hfirst (hmask b₁)
      · have hnext := hmove b₁
        rcases hmoved : i.moveOne r b₁ with ⟨yes, b₂⟩
        rw [hmoved] at hnext
        rw [moveAll_of_moved hflags hwaiting (fun hhold hspace => hfull ⟨hhold, hspace⟩) hmoved]
        exact h.trans (h.trans hfirst hnext) (ih _ b₂)

theorem obeys_serve (hclear : ∀ word, Obeys R (Bench.outsideDo (r.write icr word))) (rounds : Nat) :
    Obeys R (i.serve r rounds) := by
  intro b
  have hfirst := hlook mis (by decide) b
  rcases hraised : Bench.outsideDo (r.read mis) b with ⟨raised, b₁⟩
  rw [hraised] at hfirst
  by_cases hsome : raised &&& intAll ≠ 0
  · have hnext := h.trans hfirst (obeys_moveAll h hlook hmask hmove rounds 0 b₁)
    rcases hmoved : i.moveAll r rounds 0 b₁ with ⟨count, b₂⟩
    rw [hmoved] at hnext
    cases count with
    | none =>
      rw [serve_of_unfinished hraised hsome hmoved]
      exact hnext
    | some n =>
      rw [serve_of_moved hraised hsome hmoved]
      exact h.trans hnext (hclear _ b₂)
  · rw [serve_of_idle hraised (Decidable.not_not.mp hsome)]
    exact h.trans hfirst (hclear _ b₁)

end

end Interrupt

/-! ## What the operations of a driver obey -/

section
variable {α : Type} {r : Registers σ} {R : Bench σ → Bench σ → Prop} (h : Onward R)
include h

theorem obeys_look {offset : Nat} (hread : Obeys R (Bench.outsideDo (r.read offset)))
    (answer : UInt32 → α) :
    Obeys R (Bench.outsideDo (r.read offset) >>= fun word => pure (answer word)) :=
  h.bind hread fun _ => h.pure _

theorem obeys_remembered (chip : Place σ Chip) : Obeys R (remembered chip) := fun b => h.refl b

theorem obeys_setBaudrate (chip : Place σ Chip)
    (hset : ∀ divisor : Divisor, Obeys R (Bench.outsideDo do
      writeAll r [(ibrd, divisor.whole), (fbrd, divisor.fraction)]
      r.write lcrh (← r.read lcrh))) (rate : UInt32) : Obeys R (setBaudrate r chip rate) := by
  refine h.bind (obeys_remembered h chip) fun c => ?_
  cases Divisor.nearest? c.clock rate with
  | error e => exact h.pure _
  | ok divisor => exact h.bind (hset divisor) fun _ => h.pure _

theorem obeys_resumeReceiving (chip : Place σ Chip)
    (hunmask : Obeys R (Bench.outsideDo (r.setBits imsc intData))) :
    Obeys R (resumeReceiving r chip) := by
  refine h.bind (obeys_remembered h chip) fun c => ?_
  by_cases hinstalled : c.interrupt.isSome = true
  · rw [if_pos hinstalled]
    exact hunmask
  · rw [if_neg hinstalled]
    exact h.pure _

variable (hread : ∀ offset, Obeys R (Bench.outsideDo (r.read offset)))
include hread

theorem obeys_takeWord : Obeys R (takeWord r) := by
  refine h.bind (obeys_look h (hread fr) _) fun hasWord => ?_
  cases hasWord with
  | true => exact obeys_look h (hread dr) _
  | false => exact h.pure _

theorem obeys_receivedCount (chip : Place σ Chip) : Obeys R (driver r chip).receivedCount :=
  h.bind (obeys_look h (hread fr) _) fun _ => h.pure _

end
end SerialLine.Pl011
