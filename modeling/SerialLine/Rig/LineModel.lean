import SerialLine.Rig
/-!
# Simulated lines

The driver of a `LineModel` in a slot of a rig. Everything the driver is asked to change is noted in
the trace; what it is only asked about is not.
-/
set_option autoImplicit false

namespace SerialLine.LineModel

/-- Hands a received character to the buffer, or keeps it if reception is not installed. -/
def receive (slot : String) (word : UInt16) : StateM (Bench Rig) Unit := fun b =>
  match (b.outside.slot slot).peripheral with
  | some (.line model) =>
    match model.sink with
    | some id => ((), { b with buffers := (b.buffers.push id word).2 })
    | none =>
      ((), { b with
        outside := b.outside.updatePeripheral slot fun _ =>
          .line { model with queue := model.queue ++ [word] } })
  | _ => ((), b)

def remembered (slot : String) : StateM (Bench Rig) LineModel := do
  match ((← get).outside.slot slot).peripheral with
  | some (.line model) => return model
  | _ => return {}

def update (slot : String) (f : LineModel → LineModel) : StateM (Bench Rig) Unit :=
  modify fun b => { b with
    outside := b.outside.updatePeripheral slot fun
      | .line model => .line (f model)
      | other => other }

def saw (slot event : String) : StateM (Bench Rig) Unit :=
  modify fun b => { b with outside := b.outside.saw slot event }

def digit (b : Bool) : String := if b then "1" else "0"

def configureEvent (s : LineSettings) : String :=
  s!"configure {s.baudrate.toNat} {s.bits.toNat} {s.parity.name} {s.stop.toNat} " ++
    s!"tx={digit s.tx} rx={digit s.rx} rts={digit s.rts} cts={digit s.cts} rs485={digit s.direction}"

/-- The answer of an operation that may be set to fail. -/
def outcome : Option Error → Except Error Unit
  | some e => .error e
  | none => .ok ()

def takeWord (slot : String) : StateM (Bench Rig) (Option UInt16) := do
  match (← remembered slot).queue with
  | [] => return none
  | word :: rest =>
    update slot fun m => { m with queue := if m.endlessRx then rest ++ [word] else rest }
    return some word

def sendWord (slot : String) (word : UInt16) : StateM (Bench Rig) Unit := do
  saw slot s!"write {word.toNat}"
  update slot fun m => { m with txBudget := m.txBudget.map (· - 1) }
  if (← remembered slot).loopback then receive slot word

/-- Whether the transmitter is found idle; each look at a busy one brings that nearer. -/
def isIdle (slot : String) : StateM (Bench Rig) Bool := do
  if 0 < (← remembered slot).busyPolls then
    update slot fun m => { m with busyPolls := m.busyPolls - 1 }
    return false
  return true

def driver (slot : String) (complete : Bool) : Driver Rig where
  configure s := do
    saw slot (configureEvent s)
    return outcome (← remembered slot).failConfigure
  setBaudrate baudrate := do
    saw slot s!"set_baudrate {baudrate.toNat}"
    return outcome (← remembered slot).failSetBaudrate
  startReceiving id := do
    saw slot "enable_rx"
    match (← remembered slot).failStart with
    | some e => return .error e
    | none =>
      update slot fun m => { m with sink := some id }
      return .ok ()
  stopReceiving := do
    saw slot "disable_rx"
    update slot fun m => { m with sink := none }
  resumeReceiving := if complete then saw slot "rx_resume" else pure ()
  receivedCount := return (← remembered slot).queue.length
  takeWord := takeWord slot
  isReady := return (← remembered slot).txBudget != some 0
  sendWord := sendWord slot
  isIdle := isIdle slot
  clearToSend := if complete then return !(← remembered slot).ctsBlocked else pure true
  setDirection high := if complete then saw slot s!"direction {digit high}" else pure ()
  disable := do
    saw slot "deinit"
    update slot fun m => { m with sink := none }

end SerialLine.LineModel
