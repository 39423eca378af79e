import SerialLine.Pl011
import SerialLine.Rig.Clock
/-!
# Rigs

A rig is an outside for devices that is simulated as a whole: a clock, named slots with a peripheral
each, actions that are due at given moments, and a trace of what the peripherals saw. This module
holds its state; the peripherals and the actions have modules of their own.
-/
set_option autoImplicit false

namespace SerialLine

/-- A peripheral that hands characters on at once, or back to its own receiver. -/
structure LineModel where
  /-- Where received characters go while reception is installed. -/
  sink : Option BufferId := none
  /-- The received characters that went nowhere. -/
  queue : List UInt16 := []
  loopback : Bool := false
  /-- How many characters can still be sent; without a number, any. -/
  txBudget : Option Nat := none
  ctsBlocked : Bool := false
  /-- How many further looks find the transmitter busy. -/
  busyPolls : Nat := 0
  /-- Whether a character that is taken is received again. -/
  endlessRx : Bool := false
  failConfigure : Option Error := none
  failStart : Option Error := none
  failSetBaudrate : Option Error := none
  /-- Whether it resumes reception, heeds the other side and has a direction output. -/
  complete : Bool := true
  deriving Inhabited

/-- The registers of a block, with a queue of received characters behind them unless they are plain
memory. -/
structure RegisterBlock where
  words : Array UInt32 := Array.replicate 18 0
  plain : Bool := false
  queue : List UInt32 := []
  /-- Whether characters were lost since the last one was queued. -/
  overflowed : Bool := false
  /-- The moment up to which a character is being sent. -/
  busyUntil : Nat := 0
  /-- Flags that always read as set. -/
  flagsSet : UInt32 := 0
  /-- Flags that always read as clear. -/
  flagsClear : UInt32 := 0
  /-- Interrupts that are raised whatever else happens. -/
  raised : UInt32 := 0
  deriving Inhabited

inductive Peripheral where
  | line (model : LineModel)
  /-- A PL011 block, by its number, and what its driver remembers. -/
  | chip (chip : Pl011.Chip) (block : Nat)
  deriving Inhabited

/-- How the interrupt of a slot is served: a service and the number of the block that it serves. -/
structure Handler where
  interrupt : Pl011.Interrupt
  block : Nat
  deriving Inhabited

structure Slot where
  name : String
  peripheral : Option Peripheral := none
  handler : Option Handler := none
  deriving Inhabited

structure Sighting where
  time : Nat
  device : String
  event : String
  deriving DecidableEq, Inhabited

def Sighting.line (s : Sighting) : String :=
  s!"{s.time} {s.device} {s.event}"

inductive Change where
  | interruptAt (time : Option Nat)
  | setNow (time : Nat)
  | loopback (on : Bool)
  | txBudget (budget : Option Nat)
  | ctsBlocked (on : Bool)
  | busyPolls (count : Nat)
  | endlessRx (on : Bool)
  | failConfigure (e : Option Error)
  | failStart (e : Option Error)
  | failSetBaudrate (e : Option Error)
  | flagsSet (bits : UInt32)
  | flagsClear (bits : UInt32)
  | raised (bits : UInt32)
  | busyUntil (time : Nat)
  | poke (offset : Nat) (word : UInt32)
  | receive (bytes : List UInt8)
  | receiveWords (words : List UInt32)
  | serve

/-- What happens at a slot from a given moment on, once. -/
structure Scheduled where
  time : Nat
  slot : String
  changes : List Change

structure Rig where
  clock : SimClock := {}
  slots : List Slot := []
  blocks : Array RegisterBlock := #[]
  scheduled : List Scheduled := []
  /-- Whether raised interrupts are served after every round of background work. -/
  serveEachTick : Bool := false
  trace : Array Sighting := #[]
  deriving Inhabited

namespace Rig

/-- The rounds after which something in a rig is taken for something that never ends. -/
def patience : Nat := Nat.pow 2 40

def saw (r : Rig) (slot event : String) : Rig :=
  { r with trace := r.trace.push ⟨r.clock.now, slot, event⟩ }

/-- The slot of a name, which need not have been used. -/
def slot (r : Rig) (name : String) : Slot :=
  (r.slots.find? (·.name == name)).getD { name := name }

/-- The slots with one of them replaced or put in its place. -/
def placeSlot (s : Slot) : List Slot → List Slot
  | [] => [s]
  | t :: rest =>
    if s.name == t.name then s :: rest
    else if s.name < t.name then s :: t :: rest
    else t :: placeSlot s rest

def setSlot (r : Rig) (s : Slot) : Rig :=
  { r with slots := placeSlot s r.slots }

def updatePeripheral (r : Rig) (name : String) (f : Peripheral → Peripheral) : Rig :=
  let s := r.slot name
  r.setSlot { s with peripheral := s.peripheral.map f }

def block (r : Rig) (index : Nat) : RegisterBlock :=
  r.blocks.getD index {}

def setBlock (r : Rig) (index : Nat) (b : RegisterBlock) : Rig :=
  { r with blocks := r.blocks.setIfInBounds index b }

end Rig
end SerialLine
