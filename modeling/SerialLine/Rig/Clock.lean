import SerialLine.Platform
/-!
# Simulated clocks

A clock that moves only while background work is done, by a fixed step, and that raises the console
interrupt from a given moment on.
-/
set_option autoImplicit false

namespace SerialLine

structure SimClock where
  /-- Milliseconds. -/
  now : Nat := 0
  /-- The milliseconds that one round of background work takes. -/
  step : Nat := 1
  /-- The rounds of background work done. -/
  ticks : Nat := 0
  /-- The moment from which on the console interrupt is raised. -/
  interruptAt : Option Nat := none
  deriving DecidableEq, Inhabited

namespace SimClock

def advance (c : SimClock) : SimClock :=
  { c with now := c.now + c.step, ticks := c.ticks + 1 }

def isInterrupted (c : SimClock) : Bool :=
  match c.interruptAt with
  | some t => t ≤ c.now
  | none => false

def platform (patience : Nat) : Platform SimClock where
  ticks := return (← get).outside.now
  background := Bench.outsideDo (modify advance)
  isInterrupted := return (← get).outside.isInterrupted
  patience := patience

/-- A platform with a clock that stands still and nothing else. -/
def barePlatform (now patience : Nat) : Platform SimClock where
  ticks := pure now
  patience := patience

end SimClock
end SerialLine
