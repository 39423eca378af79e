import SerialLine.Rig
/-!
# Simulated register blocks

The register window of a block in a rig. Reading the data register takes a received character out of
a queue of at most 32; flags and interrupts follow from the state of the queue. A plain block is memory
and nothing else, and is not traced.
-/
set_option autoImplicit false

namespace SerialLine

namespace RegisterBlock

open Pl011

/-- The received characters that fit. -/
def queueSize : Nat := 32

def stored (b : RegisterBlock) (offset : Nat) : UInt32 :=
  b.words.getD (offset / 4) 0

def withStored (b : RegisterBlock) (offset : Nat) (word : UInt32) : RegisterBlock :=
  { b with words := b.words.setIfInBounds (offset / 4) word }

/-- The block after it received a character. A character that does not fit is lost, and the next one
that does says so. Memory receives nothing. -/
def receive (b : RegisterBlock) (byte : UInt8) : RegisterBlock :=
  if b.plain then b
  else if queueSize ≤ b.queue.length then { b with overflowed := true }
  else
    let word := byte.toUInt32 ||| if b.overflowed then drOverrun else 0
    { b with queue := b.queue ++ [word], overflowed := false }

/-- The block after it received data words just so, however many there are. -/
def receiveWords (b : RegisterBlock) (words : List UInt32) : RegisterBlock :=
  if b.plain then b else { b with queue := b.queue ++ words }

def flags (b : RegisterBlock) (now : Nat) : UInt32 :=
  (frTxEmpty ||| (if b.queue.isEmpty then frRxEmpty else 0)
    ||| (if queueSize ≤ b.queue.length then frRxFull else 0)
    ||| (if now < b.busyUntil then frBusy else 0) ||| b.flagsSet) &&& ~~~b.flagsClear

def interrupts (b : RegisterBlock) : UInt32 :=
  b.raised ||| if b.queue.isEmpty then 0 else intData

def passedOn (b : RegisterBlock) : UInt32 :=
  b.interrupts &&& b.stored imsc

def read (b : RegisterBlock) (now offset : Nat) : UInt32 × RegisterBlock :=
  if b.plain then (b.stored offset, b)
  else if offset = dr then
    match b.queue with
    | [] => (0, b)
    | word :: rest => (word, { b with queue := rest })
  else if offset = fr then (b.flags now, b)
  else if offset = ris then (b.interrupts, b)
  else if offset = mis then (b.passedOn, b)
  else (b.stored offset, b)

/-- Writes a register. A character to send comes back while the loopback bit is set. -/
def write (b : RegisterBlock) (offset : Nat) (word : UInt32) : RegisterBlock :=
  if b.plain then b.withStored offset word
  else if offset = dr then
    if b.stored cr &&& crLoopback ≠ 0 then b.receive word.toUInt8 else b
  else if offset = icr then b
  else b.withStored offset word

end RegisterBlock

namespace Rig

def twoDigits (n : Nat) : String :=
  let ds := Nat.toDigits 16 n
  String.ofList (List.replicate (2 - ds.length) '0' ++ ds)

def writeEvent (offset : Nat) (word : UInt32) : String :=
  s!"reg {twoDigits offset}={String.ofList (Nat.toDigits 16 word.toNat)}"

/-- The register window of a block, whose writes are noted under the name of a slot. -/
def registers (slot : String) (index : Nat) : Pl011.Registers Rig where
  read offset := fun r =>
    let (word, b) := (r.block index).read r.clock.now offset
    (word, r.setBlock index b)
  write offset word := fun r =>
    let b := r.block index
    let r := if b.plain then r else r.saw slot (writeEvent offset word)
    ((), r.setBlock index (b.write offset word))

end Rig
end SerialLine
