import SerialLine.Bench
import SerialLine.Config
/-!
# Drivers

A driver is what a device knows of its peripheral: operations that program the line, move single
characters and shut the peripheral down. Characters travel as 16-bit words, so that nine bits fit.
The driver reaches the receive buffers and the log, but not the pins.
-/
set_option autoImplicit false

namespace SerialLine

/-- The settings with which a line is programmed. -/
structure LineSettings where
  baudrate : UInt32
  bits : UInt8
  parity : Parity
  stop : UInt8
  tx : Bool
  rx : Bool
  rts : Bool
  cts : Bool
  direction : Bool
  deriving DecidableEq, Inhabited

def Config.settings (c : Config) : LineSettings where
  baudrate := c.baudrate
  bits := c.bits
  parity := c.parity
  stop := c.stop
  tx := c.tx.isSome
  rx := c.rx.isSome
  rts := c.rts.isSome
  cts := c.cts.isSome
  direction := c.direction.isSome

/-- The operations of a peripheral. -/
structure Driver (σ : Type) where
  /-- Programs the line and enables the directions it has. -/
  configure : LineSettings → StateM (Bench σ) (Except Error Unit)
  /-- Programs another rate and leaves the rest. -/
  setBaudrate : UInt32 → StateM (Bench σ) (Except Error Unit)
  /-- From now on received characters go to the buffer. -/
  startReceiving : BufferId → StateM (Bench σ) (Except Error Unit)
  stopReceiving : StateM (Bench σ) Unit
  /-- Tells that there is room in the buffer again. -/
  resumeReceiving : StateM (Bench σ) Unit := pure ()
  /-- How many received characters the peripheral itself holds. -/
  receivedCount : StateM (Bench σ) Nat
  takeWord : StateM (Bench σ) (Option UInt16)
  /-- Whether a character could be handed over for sending. -/
  isReady : StateM (Bench σ) Bool
  sendWord : UInt16 → StateM (Bench σ) Unit
  /-- Whether everything handed over has been sent. -/
  isIdle : StateM (Bench σ) Bool
  /-- Whether the other side allows sending, as far as the peripheral does not see to that. -/
  clearToSend : StateM (Bench σ) Bool := pure true
  setDirection : Bool → StateM (Bench σ) Unit := fun _ => pure ()
  disable : StateM (Bench σ) Unit

end SerialLine
