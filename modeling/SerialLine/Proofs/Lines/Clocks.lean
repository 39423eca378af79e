import SerialLine.Proofs.Lines.Frame
import SerialLine.Recording
/-! # Clocks that move on

What the end of a wait rests on: a clock that a platform never turns back, and on which every round of
background work takes a millisecond or more. Each loop adds to it that the operations it uses do not turn
the clock back either.

* `Clock.Later`: the clock was not turned back. `Clock.onward_later`: that goes through whole computations.
* `Clock.recorded`: the same clock under a recording, and `Clock.time` what it shows.
* `Clock.later_waitRound`: a round of a wait takes time.
-/
set_option autoImplicit false

namespace SerialLine

variable {σ : Type} {p : Platform σ}

/-- A clock that is never seen to go back, and that moves on by a millisecond or more in every round of
background work. -/
structure Clock (p : Platform σ) where
  now : σ → Nat
  ticks : ∀ b, now b.outside ≤ (p.ticks b).1 ∧ (p.ticks b).1 ≤ now (p.ticks b).2.outside
  background : ∀ b, now b.outside + 1 ≤ now (p.background b).2.outside
  isInterrupted : ∀ b, now b.outside ≤ now (p.isInterrupted b).2.outside

namespace Clock

variable (C : Clock p)

/-- The same clock under a recording. -/
def recorded : Clock p.recorded where
  now s := C.now s.inner
  ticks b := C.ticks b.unrecorded
  background b := C.background b.unrecorded
  isInterrupted b := C.isInterrupted b.unrecorded

/-- The time on the clock of a recorded bench. -/
def time (b : Bench (Recorded σ)) : Nat := C.recorded.now b.outside

/-- The clock was not turned back. -/
def Later (b b' : Bench σ) : Prop := C.now b.outside ≤ C.now b'.outside

theorem onward_later : Onward C.Later where
  refl _ := le_rfl
  trans := le_trans
  log _ _ := le_rfl

theorem later_waitRound (b : Bench σ) :
    C.now b.outside + 1 ≤ C.now (p.waitRound b).2.outside := by
  have hrest (interrupted : Bool) : Obeys C.Later (if interrupted then do
      logNote (W := Bench σ) .debug "wait canceled by console interrupt"
      return .error .canceled
    else return .ok () : StateM (Bench σ) (Except Error Unit)) := by
    cases interrupted with
    | true => exact C.onward_later.bind (C.onward_later.note _ _) fun _ => C.onward_later.pure _
    | false => exact C.onward_later.pure _
  exact (C.background b).trans
    (C.onward_later.bind C.isInterrupted hrest (p.background b).2)

end Clock
end SerialLine
