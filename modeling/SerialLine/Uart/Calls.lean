import SerialLine.Uart.Control
import SerialLine.Uart.Shutdown
/-!
# Calls

The calls that the user of a line can make, as data, with their answers. `perform` makes one call;
`performAll` makes several in order, each on the line that the one before left behind.
-/
set_option autoImplicit false

namespace SerialLine.Uart

inductive Call where
  /-- Reads into a buffer of so many bytes. -/
  | read (room : Nat)
  | write (data : List UInt8)
  | flush
  | poll (flags : PollFlags)
  | control (request : ControlRequest)
  | getBaudrate
  | setBaudrate (baudrate : UInt32)
  | getTimeout
  | setTimeout (timeout : Binary32)
  | waitingCount
  | discardInput
  | droppedCount
  | takeDropped
  | shutDown
  deriving DecidableEq

/-- The answer to a call, by what it tells when it succeeds. -/
inductive Reply where
  | done (result : Except Error Unit)
  | number (result : Except Error Nat)
  | seconds (result : Except Error Binary32)
  /-- The answer to a read into a buffer of so many bytes. -/
  | filled (room : Nat) (reply : ReadReply)

variable {σ : Type}

/-- The answer to a setter, and the line after it. A setter that fails leaves the line as it was. -/
def settled (u : Uart) : Except Error Uart → Reply × Uart
  | .ok u' => (.done (.ok ()), u')
  | .error e => (.done (.error e), u)

def perform (u : Uart) (d : Driver σ) (p : Platform σ) : Call → Act (World σ) (Reply × Uart)
  | .read room => do return (.filled room (← World.benchAct (u.read d p room)), u)
  | .write data => do return (.number (← World.benchAct (u.write d p data)), u)
  | .flush => do return (.done (← World.benchAct (u.flush d p)), u)
  | .poll flags => do
    let ready ← (World.benchDo (u.poll d flags) : StateM (World σ) (Except Error PollFlags))
    return (.number (ready.map fun f => f.bits.toNat), u)
  | .control request => do return (.number (← World.benchAct (u.control d p request)), u)
  | .getBaudrate => return (.number (u.getBaudrate.map UInt32.toNat), u)
  | .setBaudrate baudrate => do
    let result ← (World.benchDo (u.setBaudrate d baudrate) : StateM (World σ) (Except Error Uart))
    return u.settled result
  | .getTimeout => return (.seconds u.getTimeout, u)
  | .setTimeout timeout => return u.settled (u.setTimeout timeout)
  | .waitingCount => do
    return (.number (← (World.benchDo (u.waitingCount d) : StateM (World σ) (Except Error Nat))), u)
  | .discardInput => do
    return (.done (← (World.benchDo (u.discardInput d) : StateM (World σ) (Except Error Unit))), u)
  | .droppedCount => do
    return (.number (← (World.benchDo u.droppedCount : StateM (World σ) (Except Error Nat))), u)
  | .takeDropped => do
    return (.number (← (World.benchDo u.takeDropped : StateM (World σ) (Except Error Nat))), u)
  | .shutDown => do return (.done (.ok ()), ← u.shutDown d p)

def performAll (d : Driver σ) (p : Platform σ) :
    List Call → Uart → Act (World σ) (List Reply × Uart)
  | [], u => return ([], u)
  | call :: calls, u => do
    let (reply, u) ← u.perform d p call
    let (replies, u) ← performAll d p calls u
    return (reply :: replies, u)

end SerialLine.Uart
