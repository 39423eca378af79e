import SerialLine.Error
import SerialLine.Parity
import SerialLine.Pl011.Registers
/-!
# PL011 framing and rates

The block divides its clock by sixteen times a divisor with a fraction of 64ths. `Divisor.nearest?`
finds the divisor nearest to the wanted rate, a half upwards, and `lineControl` the value of the line
control register for a frame.
-/
set_option autoImplicit false

namespace SerialLine.Pl011

/-- A divisor: its whole part and its fraction in 64ths. -/
structure Divisor where
  whole : UInt32
  fraction : UInt32
  deriving DecidableEq, Inhabited

namespace Divisor

/-- The divisor for a rate in 64ths, rounded to the nearest: `4 * clock / baudrate`. -/
def quotient (clock baudrate : UInt32) : Nat :=
  (clock.toNat * 4 + baudrate.toNat / 2) / baudrate.toNat

/-- The divisor for a rate. Its whole part has 16 bits and is not zero. -/
def nearest? (clock baudrate : UInt32) : Except Error Divisor :=
  if baudrate = 0 then .error (.config (.invalidBaudrate baudrate))
  else
    let q := quotient clock baudrate
    if q / 64 = 0 ∨ 0xFFFF < q / 64 then .error (.config (.invalidBaudrate baudrate))
    else .ok ⟨UInt32.ofNat (q / 64), UInt32.ofNat (q % 64)⟩

end Divisor

/-- The bits that stand for a character size; the block knows seven and eight bits. -/
def sizeBits (bits : UInt8) : Except Error UInt32 :=
  if bits = 7 then .ok lcrhSeven
  else if bits = 8 then .ok lcrhEight
  else .error .notSupported

def parityBits : Parity → UInt32
  | .none => 0
  | .even => lcrhParity ||| lcrhEven
  | .odd => lcrhParity

/-- The value of the line control register for a frame, with the queues in use. -/
def lineControl (bits : UInt8) (parity : Parity) (stop : UInt8) : Except Error UInt32 := do
  let size ← sizeBits bits
  return lcrhQueues ||| size ||| parityBits parity ||| (if stop = 2 then lcrhTwoStop else 0)

end SerialLine.Pl011
