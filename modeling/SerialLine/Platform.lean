import SerialLine.Bench
/-!
# Platforms and deadlines

A platform gives a device a clock in milliseconds, work to be done in the background of a wait, and
the console interrupt. `waitStep` is one round of every wait that the interrupt may end. A deadline
measures the time since something last happened.
-/
set_option autoImplicit false

namespace SerialLine

variable {σ : Type}

/-- The services that waits rest on. -/
structure Platform (σ : Type) where
  /-- Milliseconds since some moment in the past. -/
  ticks : StateM (Bench σ) Nat
  /-- Work done once in every round of a wait. -/
  background : StateM (Bench σ) Unit := pure ()
  isInterrupted : StateM (Bench σ) Bool := pure false
  /-- The rounds after which a wait is taken for one that never ends. -/
  patience : Nat

namespace Platform

/-- One round of a wait: the background work, then a look at the console interrupt. -/
def waitRound (p : Platform σ) : StateM (Bench σ) (Except Error Unit) := do
  p.background
  if ← p.isInterrupted then
    logNote .debug "wait canceled by console interrupt"
    return .error .canceled
  return .ok ()

/-- One round of a wait that nothing ends early. -/
def workRound (p : Platform σ) : StateM (Bench σ) (Except Error Unit) := do
  p.background
  return .ok ()

end Platform

/-- A limit on the milliseconds that may pass without progress. -/
structure Deadline where
  start : Nat
  limit : Nat
  deriving DecidableEq, Inhabited

namespace Deadline

def begin (p : Platform σ) (limit : Nat) : StateM (Bench σ) Deadline := do
  return ⟨← p.ticks, limit⟩

def restart (d : Deadline) (p : Platform σ) : StateM (Bench σ) Deadline := do
  return { d with start := ← p.ticks }

/-- The milliseconds since the deadline began; none if the clock went back. -/
def elapsed (d : Deadline) (p : Platform σ) : StateM (Bench σ) Nat := do
  return (← p.ticks) - d.start

def expired (d : Deadline) (p : Platform σ) : StateM (Bench σ) Bool := do
  return d.limit ≤ (← d.elapsed p)

end Deadline
end SerialLine
