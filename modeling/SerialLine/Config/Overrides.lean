import SerialLine.Arguments
import SerialLine.Config
/-!
# Overrides

Arguments whose keys are `scope.field` replace the fields of a configuration. A field without an
argument keeps its value, and the first field in the order of `override` whose argument cannot be
read decides the error.
-/
set_option autoImplicit false

namespace SerialLine.Config

def key (scope field : String) : String :=
  s!"{scope}.{field}"

/-- A number that has to fit in a byte. -/
def toByte (value : UInt32) (field : String) : Except Error UInt8 :=
  if value.toNat < 256 then .ok value.toUInt8 else .error (.config (.invalidValue field))

/-- The pin that a key names by its number, or the present one if the key is not given. -/
def pinOf (args : Arguments) (key : String) (present : Option Pin) : Except Error (Option Pin) :=
  if (args.get? key).isNone then .ok present
  else do
    let number ← args.getUInt32 key 0
    if number.toNat < 65536 then return some ⟨number.toUInt16, ""⟩
    else throw (.config (.invalidValue "pin"))

/-- The parity that a key names, or the present one if the key is not given. -/
def parityOf (args : Arguments) (key : String) (present : Parity) : Except Error Parity :=
  match args.get? key with
  | none => .ok present
  | some name =>
    match Parity.ofName? name with
    | some parity => .ok parity
    | none => .error (.config .invalidParity)

/-- The configuration with the fields that the arguments name replaced. The capacity of the receive
buffer passes through 32 bits, whether an argument names it or not. -/
def override (c : Config) (args : Arguments) (scope : String) : Except Error Config := do
  let key := key scope
  let baudrate ← args.getUInt32 (key "baudrate") c.baudrate
  let bits ← toByte (← args.getUInt32 (key "bits") c.bits.toUInt32) "bits"
  let stop ← toByte (← args.getUInt32 (key "stop") c.stop.toUInt32) "stop"
  let timeout ← args.getBinary32 (key "timeout") c.timeout
  let capacity ← args.getUInt32 (key "rxbuf") c.receiveCapacity.toUInt32
  let directionInverted := args.getBool (key "rs485_invert") c.directionInverted
  let parity ← parityOf args (key "parity") c.parity
  let tx ← pinOf args (key "tx") c.tx
  let rx ← pinOf args (key "rx") c.rx
  let rts ← pinOf args (key "rts") c.rts
  let cts ← pinOf args (key "cts") c.cts
  let direction ← pinOf args (key "rs485_dir") c.direction
  return { c with
    baudrate, bits, stop, timeout, receiveCapacity := capacity.toNat, directionInverted, parity,
    tx, rx, rts, cts, direction }

end SerialLine.Config
