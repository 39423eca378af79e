import SerialLine.Bench
import SerialLine.Pl011.Registers
/-!
# PL011 receive interrupts

Serving the receive interrupt moves what the block has received into a receive buffer. A service that
holds data back when the buffer is full masks the interrupt instead of taking further characters, so
that the block stops the other side; any other service takes everything, and the buffer drops what
does not fit.
-/
set_option autoImplicit false

namespace SerialLine.Pl011

/-- How the receive interrupt of a block is served. -/
structure Interrupt where
  sink : BufferId
  /-- Whether characters stay in the block while the buffer is full. -/
  holdWhenFull : Bool
  deriving DecidableEq, Inhabited

namespace Interrupt

variable {σ : Type}

/-- Takes one character out of the block and into the buffer. Tells whether the buffer took it. -/
def moveOne (i : Interrupt) (r : Registers σ) : StateM (Bench σ) Bool := do
  let word ← Bench.outsideDo (r.read dr)
  if word &&& drOverrun ≠ 0 then Bench.countDropped i.sink
  Bench.push i.sink (word &&& drData).toUInt16

/-- Moves received characters into the buffer until the block has none left, or until the interrupt
is masked because the buffer is full. Counts the characters that the buffer took, on top of `count`.
There is no answer if that goes on for more than the given rounds. -/
def moveAll (i : Interrupt) (r : Registers σ) : Nat → Nat → StateM (Bench σ) (Option Nat)
  | 0, _ => return none
  | rounds + 1, count => do
    if (← Bench.outsideDo (r.read fr)) &&& frRxEmpty ≠ 0 then return some count
    if i.holdWhenFull then
      if (← Bench.ring i.sink).space = 0 then
        Bench.outsideDo (r.clearBits imsc intData)
        return some count
    let accepted ← i.moveOne r
    moveAll i r rounds (if accepted then count + 1 else count)

/-- Serves the interrupt and tells how many characters the buffer took. -/
def serve (i : Interrupt) (r : Registers σ) (rounds : Nat) : StateM (Bench σ) (Option Nat) := do
  let raised ← Bench.outsideDo (r.read mis)
  let count ← if raised &&& intAll ≠ 0 then i.moveAll r rounds 0 else pure (some 0)
  if count.isSome then Bench.outsideDo (r.write icr raised)
  return count

end Interrupt
end SerialLine.Pl011
