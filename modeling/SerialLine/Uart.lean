import SerialLine.Binary32.Shortest
import SerialLine.Driver
import SerialLine.Platform
/-!
# Serial devices

A `Uart` is one configured serial line: the pins it has claimed, its receive buffer, the direction
and frame settings, rate and timeout. `create` makes one from a configuration: it checks the
values, then finds room for the receive buffer, then claims the pins, and only then turns to the
peripheral. Whatever fails, nothing stays claimed.
-/
set_option autoImplicit false

namespace SerialLine

/-- A serial line. -/
structure Uart where
  /-- The pins that the line has claimed and gives back when it is shut down. -/
  pins : List Pin
  /-- Where received characters wait; without it, reads go to the peripheral. -/
  rxBuffer : Option BufferId
  sends : Bool
  receives : Bool
  hasDirection : Bool
  /-- Whether that output is low while sending. -/
  directionInverted : Bool
  baudrate : UInt32
  bits : UInt8
  parity : Parity
  stop : UInt8
  timeout : Binary32
  isShut : Bool := false
  deriving DecidableEq, Inhabited

namespace Uart

variable {σ : Type}

def width (u : Uart) : CharWidth := .ofBits u.bits

/-- The milliseconds that a wait for the other side may last. -/
def patienceMillis (u : Uart) : Nat := Timeout.millis u.timeout

/-- Sets the direction output, if there is one, to the level for receiving. -/
def faceReceiving (u : Uart) (d : Driver σ) : StateM (Bench σ) Unit :=
  if u.hasDirection then d.setDirection u.directionInverted else pure ()

/-- Sets the direction output, if there is one, to the level for sending. -/
def faceSending (u : Uart) (d : Driver σ) : StateM (Bench σ) Unit :=
  if u.hasDirection then d.setDirection (!u.directionInverted) else pure ()

/-- The receive buffer that a configuration asks for, if it asks for one and it fits in memory. -/
def bufferFor (c : Config) : Except Error (Option RingBuffer) :=
  if c.rx.isSome && 0 < c.receiveCapacity then
    (RingBuffer.create c.receiveCapacity c.bits).map some
  else .ok none

def ofConfig (c : Config) (rxBuffer : Option BufferId) : Uart where
  pins := c.pins
  rxBuffer := rxBuffer
  sends := c.tx.isSome
  receives := c.rx.isSome
  hasDirection := c.direction.isSome
  directionInverted := c.directionInverted
  baudrate := c.baudrate
  bits := c.bits
  parity := c.parity
  stop := c.stop
  timeout := c.timeout

def announcement (c : Config) : String :=
  s!"UART: {c.baudrate.toNat} baud {c.bits.toNat}{c.parity.letter}{c.stop.toNat} " ++
    s!"rxbuf={c.receiveCapacity} pins={Pin.describeAll c.pins}"

/-- Programs the peripheral for a configuration and leads received characters into the buffer. If
the latter fails, the peripheral is disabled again. -/
def program (d : Driver σ) (c : Config) (ring : Option RingBuffer) :
    StateM (Bench σ) (Except Error Uart) := do
  match ← d.configure c.settings with
  | .error e =>
    logNote (W := Bench σ) .error s!"UART: peripheral rejected configuration: {e.message}"
    return .error e
  | .ok () =>
    match ring with
    | none => return .ok (ofConfig c none)
    | some ring =>
      let id ← Bench.addRing ring
      match ← d.startReceiving id with
      | .error e =>
        logNote (W := Bench σ) .error s!"UART: failed to install receive path: {e.message}"
        d.disable
        return .error e
      | .ok () => return .ok (ofConfig c (some id))

def create (d : Driver σ) (c : Config) : StateM (World σ) (Except Error Uart) := do
  match c.check with
  | .error e => return .error e
  | .ok () =>
    match bufferFor c with
    | .error e => return .error e
    | .ok ring =>
      match ← World.claimAll c.pins with
      | .error e => return .error e
      | .ok () =>
        match ← World.benchDo (program d c ring) with
        | .error e =>
          World.releaseAll c.pins
          return .error e
        | .ok u =>
          World.benchDo (u.faceReceiving d)
          logNote (W := World σ) .info (announcement c)
          return .ok u

def checkLive (u : Uart) : Except Error Unit :=
  if u.isShut then .error .deinitialized else .ok ()

def describe (u : Uart) : String :=
  s!"Uart \x7b baudrate: {u.baudrate.toNat}, bits: {u.bits.toNat}, " ++
    s!"parity: {u.parity.describe}, stop: {u.stop.toNat}, timeout: {u.timeout.text}, " ++
    s!"pins: {Pin.describeAll u.pins}, deinited: {u.isShut} \x7d"

end Uart
end SerialLine
