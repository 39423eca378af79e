import SerialLine.Driver
import SerialLine.Pl011.Framing
import SerialLine.Pl011.Interrupt
/-!
# The PL011 driver

Drives one PL011 block through a window on its registers. What the driver itself remembers is a
`Chip`: the clock, how the receive interrupt is served while reception is installed, and whether the
other side is told when to pause. The direction output of a shared line is `nOUT1`, which is low while
its control bit is set.
-/
set_option autoImplicit false

namespace SerialLine.Pl011

/-- What the driver of a block remembers. -/
structure Chip where
  clock : UInt32
  interrupt : Option Interrupt := none
  flowControl : Bool := false
  deriving DecidableEq, Inhabited

/-- A place in a state where a value is kept. -/
structure Place (σ α : Type) where
  get : σ → α
  set : α → σ → σ

variable {σ : Type}

/-- The control value that enables a block in the directions of a line. -/
def controlFor (s : LineSettings) : UInt32 :=
  crEnable ||| (if s.tx then crTransmit else 0) ||| (if s.rx then crReceive else 0)
    ||| (if s.rts then crRts else 0) ||| (if s.cts then crCts else 0)

def writeAll (r : Registers σ) : List (Nat × UInt32) → StateM σ Unit
  | [] => pure ()
  | (offset, value) :: rest => do
    r.write offset value
    writeAll r rest

/-- The register writes that program a block: it is disabled first, and the divisor takes effect with
the line control value that is written after it. -/
def programFor (divisor : Divisor) (line control : UInt32) : List (Nat × UInt32) :=
  [(cr, 0), (lcrh, 0), (ibrd, divisor.whole), (fbrd, divisor.fraction), (lcrh, line),
    (icr, icrAll), (ifls, 0), (imsc, 0), (cr, control)]

def hex (n : UInt32) : String :=
  "0x" ++ String.ofList (Nat.toDigits 16 n.toNat)

def programNote (chip : Chip) (s : LineSettings) (divisor : Divisor) (line : UInt32) : String :=
  s!"PL011: clk={chip.clock.toNat} baud={s.baudrate.toNat} ibrd={divisor.whole.toNat} " ++
    s!"fbrd={divisor.fraction.toNat} lcrh={hex line} cr={hex (controlFor s)}"

def update (chip : Place σ Chip) (f : Chip → Chip) : StateM (Bench σ) Unit :=
  Bench.outsideDo (modify fun s => chip.set (f (chip.get s)) s)

/-- What the driver remembers. -/
def remembered (chip : Place σ Chip) : StateM (Bench σ) Chip :=
  Bench.outsideDo (return chip.get (← get))

/-- Programs a block, if it knows the frame and can divide its clock down to the rate. -/
def configure (r : Registers σ) (chip : Place σ Chip) (s : LineSettings) :
    StateM (Bench σ) (Except Error Unit) := do
  let c ← remembered chip
  match lineControl s.bits s.parity s.stop with
  | .error e => return .error e
  | .ok line =>
    match Divisor.nearest? c.clock s.baudrate with
    | .error e => return .error e
    | .ok divisor =>
      Bench.outsideDo (writeAll r (programFor divisor line (controlFor s)))
      update chip fun c => { c with flowControl := s.rts }
      logNote (W := Bench σ) .debug (programNote c s divisor line)
      return .ok ()

/-- Programs another rate; the line control register is written again so that it takes effect. -/
def setBaudrate (r : Registers σ) (chip : Place σ Chip) (baudrate : UInt32) :
    StateM (Bench σ) (Except Error Unit) := do
  let c ← remembered chip
  match Divisor.nearest? c.clock baudrate with
  | .error e => return .error e
  | .ok divisor =>
    Bench.outsideDo do
      writeAll r [(ibrd, divisor.whole), (fbrd, divisor.fraction)]
      r.write lcrh (← r.read lcrh)
    return .ok ()

/-- Leads received characters into a buffer. -/
def startReceiving (r : Registers σ) (chip : Place σ Chip) (sink : BufferId) :
    StateM (Bench σ) (Except Error Unit) := do
  update chip fun c => { c with interrupt := some ⟨sink, c.flowControl⟩ }
  Bench.outsideDo do
    r.write icr intAll
    r.setBits imsc intAll
  return .ok ()

/-- Masks the interrupts of reception and forgets how they are served. -/
def stopReceiving (r : Registers σ) (chip : Place σ Chip) : StateM (Bench σ) Unit := do
  Bench.outsideDo (r.clearBits imsc intAll)
  update chip fun c => { c with interrupt := none }

/-- Lets data interrupts through again, if reception is installed. -/
def resumeReceiving (r : Registers σ) (chip : Place σ Chip) : StateM (Bench σ) Unit := do
  if (← remembered chip).interrupt.isSome then Bench.outsideDo (r.setBits imsc intData)

def hasReceived (r : Registers σ) : StateM (Bench σ) Bool := do
  return (← Bench.outsideDo (r.read fr)) &&& frRxEmpty = 0

def takeWord (r : Registers σ) : StateM (Bench σ) (Option UInt16) := do
  if ← hasReceived r then
    return some ((← Bench.outsideDo (r.read dr)) &&& drData).toUInt16
  else return none

/-- Whether everything was sent: the queue is empty and no character is on its way out. -/
def isIdle (r : Registers σ) : StateM (Bench σ) Bool := do
  let flags ← Bench.outsideDo (r.read fr)
  return flags &&& frTxEmpty ≠ 0 && flags &&& frBusy = 0

def setDirection (r : Registers σ) (high : Bool) : StateM (Bench σ) Unit :=
  Bench.outsideDo (if high then r.clearBits cr crOut1 else r.setBits cr crOut1)

/-- Masks and clears every interrupt and disables the block. -/
def disable (r : Registers σ) (chip : Place σ Chip) : StateM (Bench σ) Unit := do
  Bench.outsideDo (writeAll r [(imsc, 0), (icr, icrAll), (cr, 0)])
  update chip fun c => { c with interrupt := none }
  logNote (W := Bench σ) .debug "PL011: disabled"

/-- The driver of a block. The block tells only whether it holds received characters, so it never
counts more than one. -/
def driver (r : Registers σ) (chip : Place σ Chip) : Driver σ where
  configure := configure r chip
  setBaudrate := setBaudrate r chip
  startReceiving := startReceiving r chip
  stopReceiving := stopReceiving r chip
  resumeReceiving := resumeReceiving r chip
  receivedCount := return if ← hasReceived r then 1 else 0
  takeWord := takeWord r
  isReady := return (← Bench.outsideDo (r.read fr)) &&& frTxFull = 0
  sendWord word := Bench.outsideDo (r.write dr (word.toUInt32 &&& drData))
  isIdle := isIdle r
  setDirection := setDirection r
  disable := disable r chip

end SerialLine.Pl011
