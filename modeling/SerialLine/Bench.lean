import SerialLine.Act
import SerialLine.PinRegistry
import SerialLine.RxBuffers
/-!
# Benches and worlds

A bench holds what the operations of a device act on: the shared receive buffers, the log and the
outside, a state of any type in which peripherals, clocks and interrupts live. A world adds the pin
registry, which only construction and shutdown of devices touch.
-/
set_option autoImplicit false

namespace SerialLine

/-- The state around a device. -/
structure Bench (σ : Type) where
  buffers : RxBuffers := {}
  log : Log := {}
  outside : σ

/-- A bench together with the pins that its devices share. -/
structure World (σ : Type) where
  pins : PinRegistry
  bench : Bench σ

variable {σ α : Type}

instance : HasLog (Bench σ) where
  log b := b.log
  setLog log b := { b with log := log }

instance : HasLog (World σ) where
  log w := w.bench.log
  setLog log w := { w with bench := { w.bench with log := log } }

namespace Bench

def outsideDo (f : StateM σ α) : StateM (Bench σ) α := fun b =>
  let (a, s) := f b.outside
  (a, { b with outside := s })

def ring (id : BufferId) : StateM (Bench σ) RingBuffer := fun b =>
  (b.buffers.ring id, b)

def ringDo (id : BufferId) (f : RingBuffer → α × RingBuffer) : StateM (Bench σ) α := fun b =>
  let (a, r) := f (b.buffers.ring id)
  (a, { b with buffers := b.buffers.set id r })

def push (id : BufferId) (word : UInt16) : StateM (Bench σ) Bool :=
  ringDo id fun r => r.push word

/-- Counts a character that did not reach its receive buffer. -/
def countDropped (id : BufferId) : StateM (Bench σ) Unit :=
  ringDo id fun r => ((), r.countDropped)

/-- Takes the bytes of the oldest characters out of a receive buffer. -/
def pop (id : BufferId) (room : Nat) : StateM (Bench σ) (List UInt8) :=
  ringDo id fun r => r.pop room

def addRing (r : RingBuffer) : StateM (Bench σ) BufferId := fun b =>
  let (id, buffers) := b.buffers.add r
  (id, { b with buffers := buffers })

end Bench

namespace World

def benchDo (f : StateM (Bench σ) α) : StateM (World σ) α :=
  onPart World.bench (fun b w => { w with bench := b }) f

def benchAct (act : Act (Bench σ) α) : Act (World σ) α :=
  Act.onPart World.bench (fun b w => { w with bench := b }) act

/-- Claims pins, all or none; a pin that someone else holds is noted in the log. -/
def claimAll (pins : List Pin) : StateM (World σ) (Except Error Unit) := fun w =>
  match w.pins.claimAll pins with
  | .ok reg => (.ok (), { w with pins := reg })
  | .error e =>
    (.error e, { w with bench := { w.bench with log := PinRegistry.claimNote w.bench.log e } })

def releaseAll (pins : List Pin) : StateM (World σ) Unit :=
  modify fun w => { w with pins := w.pins.releaseAll pins }

end World
end SerialLine
