import SerialLine.Uart.Receiving
import SerialLine.Uart.Sending
/-!
# Control

Settings of a live line, readiness and control requests. A setter that fails leaves the line as it
was.
-/
set_option autoImplicit false

namespace SerialLine.Uart

variable {σ : Type}

def getBaudrate (u : Uart) : Except Error UInt32 := do
  u.checkLive
  return u.baudrate

/-- The line at another rate. What was received is kept. -/
def setBaudrate (u : Uart) (d : Driver σ) (baudrate : UInt32) :
    StateM (Bench σ) (Except Error Uart) := do
  if u.isShut then return .error .deinitialized
  match Config.checkBaudrate baudrate with
  | .error e => return .error e
  | .ok () =>
    match ← d.setBaudrate baudrate with
    | .error e => return .error e
    | .ok () =>
      logNote (W := Bench σ) .debug s!"UART: baudrate {u.baudrate.toNat} -> {baudrate.toNat}"
      return .ok { u with baudrate := baudrate }

def getTimeout (u : Uart) : Except Error Binary32 := do
  u.checkLive
  return u.timeout

def setTimeout (u : Uart) (timeout : Binary32) : Except Error Uart := do
  u.checkLive
  Timeout.check timeout
  return { u with timeout := timeout }

/-- Which of the given conditions hold now; a line knows readable and writable. -/
def poll (u : Uart) (d : Driver σ) (flags : PollFlags) :
    StateM (Bench σ) (Except Error PollFlags) := do
  if u.isShut then return .error .deinitialized
  let count ← if flags.includes .readable then u.waiting d else pure 0
  let writable ← if flags.includes .writable && u.sends then canSend d else pure false
  return .ok ((if 0 < count then PollFlags.readable else .empty).union
    (if writable then .writable else .empty))

def control (u : Uart) (d : Driver σ) (p : Platform σ) (request : ControlRequest) :
    Act (Bench σ) (Except Error Nat) := do
  if u.isShut then return .error .deinitialized
  match request with
  | .poll flags => return (← u.poll d flags).map fun ready => ready.bits.toNat
  | .flush => return (← u.flush d p).map fun _ => 0
  | .other _ => return .error .invalidArgs

def properties : StreamProperties := { isText := false, exactLength := true }

def stream (u : Uart) (d : Driver σ) (p : Platform σ) : Stream (Bench σ) where
  read buffer := u.read d p buffer.length
  write data := u.write d p data
  control request := u.control d p request
  properties _ := properties

end SerialLine.Uart
