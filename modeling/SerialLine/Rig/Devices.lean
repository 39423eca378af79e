import SerialLine.Rig.Wiring
import SerialLine.Uart.Control
import SerialLine.Uart.Shutdown
/-!
# Devices in a rig

A lab is a world whose outside is a rig, together with the devices in its slots. Making a device in a
slot first drops the one that is there and puts a fresh peripheral in its place; dropping a device
shuts it down.
-/
set_option autoImplicit false

namespace SerialLine

inductive PeripheralKind where
  /-- A line that resumes reception, heeds the other side and has a direction output. -/
  | line
  /-- A line that does none of this. -/
  | bareLine
  | pl011
  /-- A PL011 block that is only memory. -/
  | memory
  deriving DecidableEq, Inhabited

/-- A rig with the devices in its slots. -/
structure Lab where
  world : World Rig
  devices : List (String × Uart) := []

namespace Lab

def worldAct {α : Type} (act : Act (World Rig) α) : Act Lab α :=
  Act.onPart Lab.world (fun w l => { l with world := w }) act

def benchDo {α : Type} (f : StateM (Bench Rig) α) : StateM Lab α :=
  onPart (fun l : Lab => l.world.bench)
    (fun b l => { l with world := { l.world with bench := b } }) f

def rig (l : Lab) : Rig := l.world.bench.outside

def device? (l : Lab) (slot : String) : Option Uart :=
  (l.devices.find? (·.1 == slot)).map (·.2)

def placeDevice (slot : String) (u : Uart) : List (String × Uart) → List (String × Uart)
  | [] => [(slot, u)]
  | (name, v) :: rest =>
    if slot == name then (slot, u) :: rest
    else if slot < name then (slot, u) :: (name, v) :: rest
    else (name, v) :: placeDevice slot u rest

def setDevice (slot : String) (u : Uart) : StateM Lab Unit :=
  modify fun l => { l with devices := placeDevice slot u l.devices }

def driverOf (r : Rig) (slot : String) : Driver Rig :=
  Rig.driver slot ((r.slot slot).peripheral.getD (.line {}))

/-- Drops the device in a slot, which shuts it down. Tells whether there was one. -/
def drop (slot : String) : Act Lab Bool := do
  let l ← get
  match l.device? slot with
  | none => return false
  | some u =>
    modify fun l => { l with devices := l.devices.filter (·.1 != slot) }
    let _ ← worldAct (u.shutDown (driverOf l.rig slot) Rig.platform)
    return true

def equip (slot : String) (kind : PeripheralKind) (clock : UInt32) : StateM (Bench Rig) Unit :=
  modify fun b =>
    let r := b.outside
    let add (plain : Bool) : Rig × Peripheral :=
      ({ r with blocks := r.blocks.push { plain := plain } },
        .chip { clock := clock } r.blocks.size)
    let (r, peripheral) := match kind with
      | .line => (r, Peripheral.line { complete := true })
      | .bareLine => (r, Peripheral.line { complete := false })
      | .pl011 => add false
      | .memory => add true
    { b with outside := r.setSlot { r.slot slot with peripheral := some peripheral } }

/-- Keeps the handler for the interrupt of the block in a slot, if there is one to keep. -/
def keepHandler (slot : String) : StateM (Bench Rig) Unit :=
  modify fun b =>
    match b.outside.handlerOf slot with
    | none => b
    | some h =>
      { b with
        outside := b.outside.setSlot { b.outside.slot slot with handler := some h } }

/-- Makes a device in a slot: drops the one that is there, puts in a fresh peripheral, lets changes
happen to it and constructs the device. -/
def create (slot : String) (kind : PeripheralKind) (clock : UInt32) (changes : List Change)
    (c : Config) : Act Lab (Except Error Unit) := do
  let _ ← drop slot
  benchDo (equip slot kind clock)
  benchDo (Rig.applyAll slot changes)
  let l ← get
  match ← worldAct (liftM (Uart.create (driverOf l.rig slot) c)) with
  | .error e => return .error e
  | .ok u =>
    setDevice slot u
    benchDo (keepHandler slot)
    return .ok ()

/-- Uses the device in a slot, if there is one. -/
def use {α : Type} (slot : String) (f : Driver Rig → Platform Rig → Uart.Use Rig α) :
    Act Lab (Option α) := do
  let l ← get
  match l.device? slot with
  | none => return none
  | some u =>
    let a ← Act.onPart (fun l => (u, l.world))
      (fun (u, w) l => { world := w, devices := placeDevice slot u l.devices })
      (f (driverOf l.rig slot) Rig.platform)
    return some a

end Lab
end SerialLine
