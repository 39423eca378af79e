import SerialLine.Proofs.Receiving.Intake
/-! # Receiving in the background

* `Inlet`: what a read relies on of driver and platform. Characters come in during the background work
  of waits, and the peripheral gives out what it holds in order.
* `Inlet.toIntake`: that is a way to take characters in of which all holds that holds of any.
-/
set_option autoImplicit false

namespace SerialLine.Uart

variable {σ : Type}

/-- What a read of a line relies on. -/
structure Inlet (u : Uart) (d : Driver σ) (p : Platform σ) extends Holdings σ where
  ticks : ∀ b, toHoldings.Still u b (p.ticks b).2
  isInterrupted : ∀ b, toHoldings.Still u b (p.isInterrupted b).2
  background : ∀ b, (∀ id, u.rxBuffer = some id → b.buffers.Holds id) →
    ∃ new, toHoldings.Arrives u new b (p.background b).2
  resumeReceiving : ∀ b, toHoldings.Still u b (d.resumeReceiving b).2
  /-- A peripheral that holds characters gives out the oldest one. -/
  takeWord_some : u.rxBuffer = none → ∀ b word rest, held b.outside = word :: rest →
    (d.takeWord b).1 = some word ∧ held (d.takeWord b).2.outside = rest ∧
      taken (d.takeWord b).2.outside = taken b.outside
  takeWord_none : u.rxBuffer = none → ∀ b, held b.outside = [] →
    (d.takeWord b).1 = none ∧ held (d.takeWord b).2.outside = [] ∧
      taken (d.takeWord b).2.outside = taken b.outside

namespace Inlet

variable {u : Uart} {d : Driver σ} {p : Platform σ}

theorem still_begin (I : Inlet u d p) (limit : Nat) (b : Bench σ) :
    I.Still u b (Deadline.begin p limit b).2 := I.ticks b

/-! ## As an intake -/

/-- Characters may come in during the background work, and at no other time. -/
def toIntake (I : Inlet u d p) : Intake u d p where
  toHoldings := I.toHoldings
  ticks b := (I.ticks b).admits
  isInterrupted b := (I.isInterrupted b).admits
  background := I.background
  resumeReceiving b := (I.resumeReceiving b).admits
  takeWord hbuffer b := by
    cases hheld : I.held b.outside with
    | nil =>
      obtain ⟨hword, hnone, htaken⟩ := I.takeWord_none hbuffer b hheld
      exact ⟨[], by rw [htaken, List.append_nil], by rw [hword, hnone]; rfl⟩
    | cons word rest =>
      obtain ⟨hword, hrest, htaken⟩ := I.takeWord_some hbuffer b word rest hheld
      exact ⟨[], by rw [htaken, List.append_nil], by rw [hword, hrest, List.append_nil]; rfl⟩
  takeWord_none hbuffer b hnone := by
    cases hheld : I.held b.outside with
    | nil => rfl
    | cons word rest =>
      rw [(I.takeWord_some hbuffer b word rest hheld).1] at hnone
      cases hnone

theorem sheltered (I : Inlet u d p) : I.toIntake.Sheltered where
  ticks := I.ticks
  takeWord hbuffer b hnone :=
    (I.takeWord_none hbuffer b (I.toIntake.takeWord_none hbuffer b hnone)).2.2

end Inlet
end SerialLine.Uart
