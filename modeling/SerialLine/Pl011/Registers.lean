/-!
# PL011 registers

The registers of a PL011 block by their byte offset, their bits, and a window through which they are
read and written. Reading may change the state behind the window, as when a character is taken.
-/
set_option autoImplicit false

namespace SerialLine.Pl011

/-! ## Offsets -/

/-- Data: the next received character, or a character to send. -/
def dr : Nat := 0x00

/-- Receive status. -/
def rsr : Nat := 0x04

/-- Flags. -/
def fr : Nat := 0x18

/-- Whole part of the divisor. -/
def ibrd : Nat := 0x24

/-- Fraction of the divisor, in 64ths. -/
def fbrd : Nat := 0x28

/-- Line control. -/
def lcrh : Nat := 0x2C

/-- Control. -/
def cr : Nat := 0x30

/-- Queue levels at which interrupts are raised. -/
def ifls : Nat := 0x34

/-- Which interrupts are passed on. -/
def imsc : Nat := 0x38

/-- Interrupts raised. -/
def ris : Nat := 0x3C

/-- Interrupts raised and passed on. -/
def mis : Nat := 0x40

/-- Interrupts to be cleared. -/
def icr : Nat := 0x44

/-! ## Bits of the data register -/

def drData : UInt32 := 0xFF
def drFramingError : UInt32 := 0x100
def drParityError : UInt32 := 0x200
def drBreak : UInt32 := 0x400

/-- Characters were lost before this one. -/
def drOverrun : UInt32 := 0x800

/-! ## Flags -/

def frTxEmpty : UInt32 := 0x80
def frRxFull : UInt32 := 0x40
def frTxFull : UInt32 := 0x20
def frRxEmpty : UInt32 := 0x10
def frBusy : UInt32 := 0x8

/-! ## Line control bits -/

def lcrhParity : UInt32 := 0x2
def lcrhEven : UInt32 := 0x4
def lcrhTwoStop : UInt32 := 0x8

/-- The queues are in use. -/
def lcrhQueues : UInt32 := 0x10

def lcrhSeven : UInt32 := 0x40
def lcrhEight : UInt32 := 0x60

/-! ## Control bits -/

/-- Sending heeds the other side. -/
def crCts : UInt32 := 0x8000

/-- The other side is told when to pause. -/
def crRts : UInt32 := 0x4000

/-- The output `nOUT1` is low. -/
def crOut1 : UInt32 := 0x1000

def crReceive : UInt32 := 0x200
def crTransmit : UInt32 := 0x100

/-- What is sent is received as well. -/
def crLoopback : UInt32 := 0x80

def crEnable : UInt32 := 0x1

/-! ## Interrupts -/

def intOverrun : UInt32 := 0x400

/-- Received characters have waited for a while. -/
def intTimeout : UInt32 := 0x40

def intReceive : UInt32 := 0x10

/-- The two interrupts that are held back while the receive buffer is full. -/
def intData : UInt32 := intReceive ||| intTimeout

def intAll : UInt32 := intReceive ||| intTimeout ||| intOverrun
def icrAll : UInt32 := 0x7FF

/-- The clock of a block for which none is given, in hertz. -/
def standardClock : UInt32 := 24000000

/-! ## Windows -/

/-- A window on the registers of one block. -/
structure Registers (σ : Type) where
  read : Nat → StateM σ UInt32
  write : Nat → UInt32 → StateM σ Unit

namespace Registers

variable {σ : Type}

def setBits (r : Registers σ) (offset : Nat) (bits : UInt32) : StateM σ Unit := do
  r.write offset ((← r.read offset) ||| bits)

def clearBits (r : Registers σ) (offset : Nat) (bits : UInt32) : StateM σ Unit := do
  r.write offset ((← r.read offset) &&& ~~~bits)

end Registers
end SerialLine.Pl011
