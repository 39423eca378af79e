import SerialLine.Uart.Receiving
import SerialLine.Uart.Sending
/-!
# Shutting down

A line is shut down once: reception stops, what is being sent gets the time that a full transmit queue
takes, the direction output goes back to receiving, the peripheral is disabled and the pins are free.
Shutting down again does nothing. A session shuts its line down when it ends, also when it is aborted.
-/
set_option autoImplicit false

namespace SerialLine.Uart

variable {σ : Type}

/-- The characters that the transmitter may still have to send. -/
def drainChars : Nat := 64

/-- Milliseconds added to the time for sending them, as the clock is coarse. -/
def drainSlack : Nat := 10

/-- The bits of a character on the line: start bit, data, parity and stop bits. -/
def frameBits (u : Uart) : Nat :=
  1 + u.bits.toNat + u.parity.bitCount + u.stop.toNat

/-- The milliseconds that the transmitter is given before it is disabled. -/
def drainLimit (u : Uart) : Nat :=
  let rate := max u.baudrate.toNat 1
  (drainChars * u.frameBits * 1000 + rate - 1) / rate + drainSlack

def drain (u : Uart) (d : Driver σ) (p : Platform σ) : Act (Bench σ) Unit := do
  if u.sends then
    let deadline ← Deadline.begin p u.drainLimit
    match ← awaitIdle d p p.workRound (some deadline) p.patience with
    | .ok true => return ()
    | _ => logNote (W := Bench σ) .warning "UART: transmitter still busy at deinit"

/-- Stops reception, drains the transmitter and disables the peripheral. -/
def windDown (u : Uart) (d : Driver σ) (p : Platform σ) : Act (Bench σ) Unit := do
  d.stopReceiving
  u.drain d p
  u.faceReceiving d
  d.disable
  let count ← (u.dropped : StateM (Bench σ) Nat)
  noteDropped (σ := σ) count

def shut (u : Uart) : Uart :=
  { u with pins := [], rxBuffer := none, isShut := true }

/-- Shuts the line down, unless that has been done. -/
def shutDown (u : Uart) (d : Driver σ) (p : Platform σ) : Act (World σ) Uart := do
  if u.isShut then return u
  World.benchAct (u.windDown d p)
  (World.releaseAll u.pins : StateM (World σ) Unit)
  logNote (W := World σ) .info "UART: deinitialized"
  return u.shut

/-! ## Sessions -/

/-- What is done with a line in its world. Where it is halted, the line is kept as it has become. -/
abbrev Use (σ α : Type) := Act (Uart × World σ) α

variable {α : Type}

/-- A call as a part of a use. One that is halted leaves the line as it was. -/
def Use.call (f : Uart → Act (World σ) (α × Uart)) : Use σ α := fun (u, w) =>
  match f u w with
  | .ok (a, u) w => .ok a (u, w)
  | .error e w => .error e (u, w)

/-- The end of a session. -/
def endSession (d : Driver σ) (p : Platform σ) : Use σ Unit :=
  .call fun u => do return ((), ← u.shutDown d p)

/-- Uses a line and then shuts it down. So is the line of a use that is aborted, before the halt goes on
to whoever began the session. An unfinished use never comes to that. -/
def session (d : Driver σ) (p : Platform σ) (use : Use σ α) : Use σ α := fun s =>
  match use s with
  | .ok a s => (do endSession d p; return a : Use σ α) s
  | .error .aborted s => (do endSession d p; throw .aborted : Use σ α) s
  | .error .unfinished s => .error .unfinished s

end SerialLine.Uart
