import SerialLine.Stream
import SerialLine.Uart
/-!
# Receiving

A read waits until the caller's buffer holds as many whole characters as fit, or until nothing was
received for as long as the timeout. Each round takes what is there, begins the deadline anew if that
was something, looks whether the buffer is full or the deadline over, and only then waits.
-/
set_option autoImplicit false

namespace SerialLine.Uart

variable {σ : Type}

/-- The characters that could be read without waiting. -/
def waiting (u : Uart) (d : Driver σ) : StateM (Bench σ) Nat :=
  match u.rxBuffer with
  | some id => return (← Bench.ring id).available
  | none => if u.receives then d.receivedCount else pure 0

def takeFromPeripheral (d : Driver σ) (w : CharWidth) : Nat → StateM (Bench σ) (List UInt8)
  | 0 => pure []
  | n + 1 => do
    match ← d.takeWord with
    | none => return []
    | some word => return w.encodeWord word ++ (← takeFromPeripheral d w n)

/-- Takes the whole characters that are there and fit in `room` bytes. -/
def takeWaiting (u : Uart) (d : Driver σ) (room : Nat) : StateM (Bench σ) (List UInt8) :=
  match u.rxBuffer with
  | some id => do
    let bytes ← Bench.pop id room
    if !bytes.isEmpty then d.resumeReceiving
    return bytes
  | none => takeFromPeripheral d u.width (room / u.width.bytes)

/-- Goes on reading until `want` bytes are there, of which there are `got` already. -/
def receive (u : Uart) (d : Driver σ) (p : Platform σ) (want : Nat) :
    Nat → Deadline → List UInt8 → Act (Bench σ) ReadReply
  | 0, _, _ => throw .unfinished
  | patience + 1, deadline, got => do
    let bytes ← u.takeWaiting d (want - got.length)
    let deadline ← if bytes.isEmpty then pure deadline else liftM (deadline.restart p)
    let got := got ++ bytes
    if got.length = want then return ⟨.ok got.length, got⟩
    if ← deadline.expired p then
      return ⟨if got.isEmpty then .error .shouldWait else .ok got.length, got⟩
    match ← p.waitRound with
    | .error e => return ⟨.error e, got⟩
    | .ok () => receive u d p want patience deadline got

/-- Reads into a buffer of `room` bytes. -/
def read (u : Uart) (d : Driver σ) (p : Platform σ) (room : Nat) : Act (Bench σ) ReadReply := do
  if u.isShut then return ⟨.error .deinitialized, []⟩
  if !u.receives then return ⟨.error .notSupported, []⟩
  if room = 0 then return ⟨.ok 0, []⟩
  if room < u.width.bytes then return ⟨.error .invalidArgs, []⟩
  let deadline ← Deadline.begin p u.patienceMillis
  u.receive d p (room - room % u.width.bytes) p.patience deadline []

def waitingCount (u : Uart) (d : Driver σ) : StateM (Bench σ) (Except Error Nat) := do
  if u.isShut then return .error .deinitialized
  return .ok (← u.waiting d)

def discardFromPeripheral (d : Driver σ) : Nat → StateM (Bench σ) Unit
  | 0 => pure ()
  | n + 1 => do
    match ← d.takeWord with
    | none => return ()
    | some _ => discardFromPeripheral d n

def discardInput (u : Uart) (d : Driver σ) : StateM (Bench σ) (Except Error Unit) := do
  if u.isShut then return .error .deinitialized
  match u.rxBuffer with
  | some id => Bench.ringDo id fun r => ((), r.clear)
  | none => if u.receives then discardFromPeripheral d (← d.receivedCount)
  d.resumeReceiving
  return .ok ()

/-- The received characters dropped since the count was last taken. -/
def dropped (u : Uart) : StateM (Bench σ) Nat :=
  match u.rxBuffer with
  | some id => return (← Bench.ring id).dropped.toNat
  | none => pure 0

def droppedCount (u : Uart) : StateM (Bench σ) (Except Error Nat) := do
  if u.isShut then return .error .deinitialized
  return .ok (← u.dropped)

def noteDropped (count : Nat) : StateM (Bench σ) Unit :=
  if 0 < count then logNote .warning s!"UART: {count} received characters dropped" else pure ()

def takeDropped (u : Uart) : StateM (Bench σ) (Except Error Nat) := do
  if u.isShut then return .error .deinitialized
  match u.rxBuffer with
  | none => return .ok 0
  | some id =>
    let count ← Bench.ringDo id RingBuffer.takeDropped
    noteDropped count
    return .ok count

end SerialLine.Uart
