import SerialLine.Error
import SerialLine.Parity
import SerialLine.Timeout
/-!
# Line configurations

Everything that a serial line is constructed from. A configuration may hold any values; `check` says
whether a line can be made of it, which of several faults is reported, and does not look at whether
the pins are free.
-/
set_option autoImplicit false

namespace SerialLine

/-- What a serial line is constructed from. -/
structure Config where
  tx : Option Pin := none
  rx : Option Pin := none
  /-- The output by which the line asks the other side to pause. -/
  rts : Option Pin := none
  /-- The input by which the other side asks the line to pause. -/
  cts : Option Pin := none
  /-- The output that enables the transmitter of a shared line. -/
  direction : Option Pin := none
  /-- Whether that output is low, instead of high, while sending. -/
  directionInverted : Bool := false
  /-- Bits per second. -/
  baudrate : UInt32 := 9600
  bits : UInt8 := 8
  parity : Parity := .none
  stop : UInt8 := 1
  /-- Seconds. -/
  timeout : Binary32 := Timeout.standard
  /-- Characters that fit in the receive buffer; none means that reads go to the peripheral. -/
  receiveCapacity : Nat := 64
  deriving DecidableEq, Inhabited

namespace Config

/-- The wanted pins in the order in which they are claimed. -/
def pins (c : Config) : List Pin :=
  [c.tx, c.rx, c.rts, c.cts, c.direction].filterMap id

def isStandard (c : Config) : Bool :=
  c = {}

/-- Accepts a baud rate; only zero is none. -/
def checkBaudrate (baudrate : UInt32) : Except Error Unit :=
  if baudrate = 0 then .error (.config (.invalidBaudrate baudrate)) else .ok ()

/-- Reports the first value that is out of its range: directions, bits, stop bits, timeout, rate. -/
def check (c : Config) : Except Error Unit := do
  if c.tx.isNone && c.rx.isNone then throw (.config .noPins)
  if c.bits < 7 || 9 < c.bits then throw (.config (.invalidBits c.bits))
  if c.stop ≠ 1 && c.stop ≠ 2 then throw (.config (.invalidStop c.stop))
  Timeout.check c.timeout
  checkBaudrate c.baudrate

end Config
end SerialLine
