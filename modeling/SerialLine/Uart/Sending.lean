import SerialLine.Uart
/-!
# Sending

A write hands characters to the peripheral one by one, waiting before each until the peripheral and
the other side are ready, and gives up when that takes as long as the timeout. A line with a direction
output holds it at the sending level from before the first character until the last one is out.
-/
set_option autoImplicit false

namespace SerialLine.Uart

variable {σ : Type}

def canSend (d : Driver σ) : StateM (Bench σ) Bool := do
  if ← d.isReady then d.clearToSend else return false

/-- Waits until a character may be handed over. False means that the deadline came first. -/
def awaitReady (d : Driver σ) (p : Platform σ) (deadline : Deadline) :
    Nat → Act (Bench σ) (Except Error Bool)
  | 0 => throw .unfinished
  | patience + 1 => do
    if ← canSend d then return .ok true
    if ← deadline.expired p then return .ok false
    match ← p.waitRound with
    | .error e => return .error e
    | .ok () => awaitReady d p deadline patience

/-- Hands over characters, after `written` bytes have been. Gives the bytes handed over by then. -/
def sendWords (u : Uart) (d : Driver σ) (p : Platform σ) :
    List UInt16 → Deadline → Nat → Act (Bench σ) (Except Error Nat)
  | [], _, written => return .ok written
  | word :: words, deadline, written => do
    match ← awaitReady d p deadline p.patience with
    | .error e => return .error e
    | .ok false =>
      logNote (W := Bench σ) .debug s!"UART: transmitter stalled after {written} bytes"
      return if written = 0 then .error .shouldWait else .ok written
    | .ok true =>
      d.sendWord word
      let deadline ← deadline.restart p
      sendWords u d p words deadline (written + u.width.bytes)

/-- Waits until everything handed over is sent, in rounds of the given kind. False means that the
deadline, if there is one, came first. -/
def awaitIdle (d : Driver σ) (p : Platform σ) (round : StateM (Bench σ) (Except Error Unit))
    (deadline : Option Deadline) : Nat → Act (Bench σ) (Except Error Bool)
  | 0 => throw .unfinished
  | patience + 1 => do
    if ← d.isIdle then return .ok true
    let expired ← match deadline with
      | some deadline => liftM (deadline.expired p)
      | none => pure false
    if expired then return .ok false
    match ← round with
    | .error e => return .error e
    | .ok () => awaitIdle d p round deadline patience

/-- Sends data. A line with a direction output answers `canceled` also when the interrupt only ended
the wait for the last character to be out. -/
def write (u : Uart) (d : Driver σ) (p : Platform σ) (data : List UInt8) :
    Act (Bench σ) (Except Error Nat) := do
  if u.isShut then return .error .deinitialized
  if !u.sends then return .error .notSupported
  if data.length % u.width.bytes ≠ 0 then return .error .invalidArgs
  if data.isEmpty then return .ok 0
  u.faceSending d
  let deadline ← Deadline.begin p u.patienceMillis
  let result ← u.sendWords d p (u.width.decode data) deadline 0
  if !u.hasDirection then return result
  let drained ← awaitIdle d p p.waitRound none p.patience
  u.faceReceiving d
  match result, drained with
  | .ok _, .error .canceled => return .error .canceled
  | result, _ => return result

def flush (u : Uart) (d : Driver σ) (p : Platform σ) : Act (Bench σ) (Except Error Unit) := do
  if u.isShut then return .error .deinitialized
  if !u.sends then return .ok ()
  let deadline ← Deadline.begin p u.patienceMillis
  match ← awaitIdle d p p.waitRound (some deadline) p.patience with
  | .ok true => return .ok ()
  | .ok false => return .error .shouldWait
  | .error e => return .error e

end SerialLine.Uart
