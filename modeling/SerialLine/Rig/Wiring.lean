import SerialLine.Rig.LineModel
import SerialLine.Rig.RegisterBlock
/-!
# Wiring of a rig

Which driver belongs to the peripheral in a slot, how raised interrupts reach their handlers, and the
platform that a rig is: a round of background work moves the clock, lets the actions that have become
due happen, and then serves interrupts if the rig does that by itself.
-/
set_option autoImplicit false

namespace SerialLine.Rig

/-! ## Drivers and handlers -/

/-- Where a slot keeps what the driver of its block remembers. -/
def chipPlace (slot : String) : Pl011.Place Rig Pl011.Chip where
  get r := match (r.slot slot).peripheral with
    | some (.chip chip _) => chip
    | _ => { clock := 0 }
  set chip r := r.updatePeripheral slot fun
    | .chip _ index => .chip chip index
    | other => other

def driver (slot : String) : Peripheral → Driver Rig
  | .line model => LineModel.driver slot model.complete
  | .chip _ index => Pl011.driver (registers slot index) (chipPlace slot)

def chip? (r : Rig) (slot : String) : Option Pl011.Chip :=
  match (r.slot slot).peripheral with
  | some (.chip chip _) => some chip
  | _ => none

/-- The handler for the interrupt of the block in a slot, if reception is installed. -/
def handlerOf (r : Rig) (slot : String) : Option Handler :=
  match (r.slot slot).peripheral with
  | some (.chip chip block) => chip.interrupt.map fun i => ⟨i, block⟩
  | _ => none

/-- Lets a handler serve its interrupt, with its register accesses noted under the name of a slot. -/
def serveWith (slot : String) (h : Handler) : StateM (Bench Rig) (Option Nat) :=
  h.interrupt.serve (registers slot h.block) patience

/-- Serves the interrupt of the block in a slot as its driver has it served now. -/
def serveFresh (slot : String) : StateM (Bench Rig) (Option Nat) := do
  match (← get).outside.handlerOf slot with
  | none => return none
  | some h => serveWith slot h

/-- Writes a register of the block in a slot, sets and clears bits of it, as far as values are given
for that, and then reads it. -/
def access (slot : String) (offset : Nat) (write set clear : Option UInt32) :
    StateM (Bench Rig) (Option UInt32) := do
  match ((← get).outside.slot slot).peripheral with
  | some (.chip _ block) =>
    let r := registers slot block
    Bench.outsideDo do
      if let some word := write then r.write offset word
      if let some bits := set then r.setBits offset bits
      if let some bits := clear then r.clearBits offset bits
      return some (← r.read offset)
  | _ => return none

/-- Serves the interrupt of a slot that has a handler and tells how many characters were moved. -/
def serve (slot : String) : StateM (Bench Rig) (Option Nat) := do
  match ((← get).outside.slot slot).handler with
  | none => return none
  | some h => serveWith slot h

def serveNoted (slot : String) : StateM (Bench Rig) Unit := do
  match ← serve slot with
  | none => return ()
  | some count => LineModel.saw slot s!"irq {count}"

/-! ## Changes -/

def updateClock (f : SimClock → SimClock) : StateM (Bench Rig) Unit :=
  modify fun b => { b with outside := { b.outside with clock := f b.outside.clock } }

def updateBlock (slot : String) (f : RegisterBlock → RegisterBlock) : StateM (Bench Rig) Unit :=
  modify fun b =>
    match (b.outside.slot slot).peripheral with
    | some (.chip _ index) =>
      { b with outside := b.outside.setBlock index (f (b.outside.block index)) }
    | _ => b

def receiveAll (slot : String) : List UInt16 → StateM (Bench Rig) Unit
  | [] => pure ()
  | word :: words => do
    LineModel.receive slot word
    receiveAll slot words

/-- Carries out a change at a slot. What its peripheral does not have stays as it is. -/
def apply (slot : String) : Change → StateM (Bench Rig) Unit
  | .interruptAt time => updateClock fun c => { c with interruptAt := time }
  | .setNow time => updateClock fun c => { c with now := time }
  | .loopback on => LineModel.update slot fun m => { m with loopback := on }
  | .txBudget budget => LineModel.update slot fun m => { m with txBudget := budget }
  | .ctsBlocked on => LineModel.update slot fun m => { m with ctsBlocked := on }
  | .busyPolls count => LineModel.update slot fun m => { m with busyPolls := count }
  | .endlessRx on => LineModel.update slot fun m => { m with endlessRx := on }
  | .failConfigure e => LineModel.update slot fun m => { m with failConfigure := e }
  | .failStart e => LineModel.update slot fun m => { m with failStart := e }
  | .failSetBaudrate e => LineModel.update slot fun m => { m with failSetBaudrate := e }
  | .flagsSet bits => updateBlock slot fun k => { k with flagsSet := bits }
  | .flagsClear bits => updateBlock slot fun k => { k with flagsClear := bits }
  | .raised bits => updateBlock slot fun k => { k with raised := bits }
  | .busyUntil time => updateBlock slot fun k => { k with busyUntil := time }
  | .poke offset word => updateBlock slot fun k => k.withStored offset word
  | .receive bytes => do
    updateBlock slot fun k => bytes.foldl RegisterBlock.receive k
    receiveAll slot (bytes.map UInt8.toUInt16)
  | .receiveWords words => do
    updateBlock slot fun k => k.receiveWords words
    receiveAll slot (words.map UInt32.toUInt16)
  | .serve => serveNoted slot

def applyAll (slot : String) : List Change → StateM (Bench Rig) Unit
  | [] => pure ()
  | change :: changes => do
    apply slot change
    applyAll slot changes

/-! ## Background work -/

def happen : List Scheduled → StateM (Bench Rig) Unit
  | [] => pure ()
  | s :: rest => do
    applyAll s.slot s.changes
    happen rest

/-- Takes the actions that are due out of the schedule. -/
def takeDue : StateM (Bench Rig) (List Scheduled) := fun b =>
  let r := b.outside
  let isDue (s : Scheduled) : Bool := s.time ≤ r.clock.now
  (r.scheduled.filter isDue,
    { b with outside := { r with scheduled := r.scheduled.filter fun s => !isDue s } })

def raises (r : Rig) (s : Slot) : Bool :=
  match s.peripheral with
  | some (.chip _ index) =>
    let k := r.block index
    !k.plain && k.passedOn != 0
  | _ => false

def serveEach : List Slot → StateM (Bench Rig) Unit
  | [] => pure ()
  | s :: rest => do
    serveNoted s.name
    serveEach rest

def background : StateM (Bench Rig) Unit := do
  updateClock SimClock.advance
  happen (← takeDue)
  let r := (← get).outside
  if r.serveEachTick then serveEach (r.slots.filter r.raises)

def work : Nat → StateM (Bench Rig) Unit
  | 0 => pure ()
  | n + 1 => do
    background
    work n

def platform : Platform Rig where
  ticks := return (← get).outside.clock.now
  background := background
  isInterrupted := return (← get).outside.clock.isInterrupted
  patience := patience

end SerialLine.Rig
