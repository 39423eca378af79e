import SerialLine.Pin
/-!
# Errors

What can go wrong with a serial line, by cause. `ConfigError` collects the faults of a
configuration or a setter argument; `Error` adds the states a device, a wait or a peripheral can be
in. Each cause has one message and one status number.
-/
set_option autoImplicit false

namespace SerialLine

/-- A fault in a configuration or in the argument of a setter. -/
inductive ConfigError where
  /-- Neither direction has a pin. -/
  | noPins
  | pinInUse (pin : Pin)
  /-- One pin is asked for in two roles. -/
  | duplicatePin (pin : Pin)
  | invalidPin (pin : Pin)
  /-- A character is 7, 8 or 9 bits wide. -/
  | invalidBits (bits : UInt8)
  /-- There are one or two stop bits. -/
  | invalidStop (stop : UInt8)
  /-- A timeout lies between 0 and 100 seconds. -/
  | invalidTimeout
  /-- The rate is zero, or the peripheral cannot divide its clock down to it. -/
  | invalidBaudrate (baudrate : UInt32)
  | invalidParity
  /-- The text given for an argument cannot be read. -/
  | invalidValue (argument : String)
  deriving DecidableEq

/-- No piece of memory has more bytes. Memory up to this size is taken to be available. -/
def maxBytes : Nat := Nat.pow 2 63 - 1

/-- Why an operation on a serial line did not succeed. -/
inductive Error where
  | config (cause : ConfigError)
  | deinitialized
  /-- Nothing could be done now; trying again later may help. -/
  | shouldWait
  /-- The console interrupt ended a wait. -/
  | canceled
  | invalidArgs
  | notSupported
  | io
  | noMemory
  deriving DecidableEq

def ConfigError.message : ConfigError → String
  | noPins => "tx and rx cannot both be None"
  | pinInUse pin => s!"{pin.label} in use"
  | duplicatePin pin => s!"{pin.label} requested more than once"
  | invalidPin pin => s!"Invalid pin {pin.label}"
  | invalidBits _ => "bits must be 7, 8 or 9"
  | invalidStop _ => "stop must be 1 or 2"
  | invalidTimeout => "timeout must be 0.0-100.0 seconds"
  | invalidBaudrate _ => "baudrate must be positive"
  | invalidParity => "parity must be none, even or odd"
  | invalidValue argument => s!"invalid value for {argument}"

namespace Error

def message : Error → String
  | config cause => cause.message
  | deinitialized =>
    "Object has been deinitialized and can no longer be used. Create a new object."
  | shouldWait => "operation would block"
  | canceled => "operation interrupted"
  | invalidArgs => "invalid argument"
  | notSupported => "not supported by this peripheral"
  | io => "I/O error"
  | noMemory => "out of memory"

/-- The status number of an error; every error is negative. -/
def status : Error → Int
  | config (.pinInUse _) => -9
  | config _ => -2
  | deinitialized => -4
  | shouldWait => -18
  | canceled => -21
  | invalidArgs => -2
  | notSupported => -5
  | io => -11
  | noMemory => -12

/-- Whether the error only says that no progress was possible right now. -/
def isTransient : Error → Bool
  | shouldWait => true
  | _ => false

def isConfig : Error → Bool
  | config _ => true
  | _ => false

end Error

end SerialLine
