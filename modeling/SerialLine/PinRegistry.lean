import SerialLine.Error
import SerialLine.Log
/-!
# The pin registry

The registry says which of the pins `0 … pinCount - 1` are claimed, one bit per pin in 64-bit words.
`claimAll` takes a whole list of pins or none of it; `releaseAll` gives pins back and ignores pins
that are free or unknown.
-/
set_option autoImplicit false

namespace SerialLine

/-- The table of claimed pins, with a word for every 64 of them begun. -/
structure PinRegistry where
  pinCount : Nat
  words : Array UInt64
  size_words : words.size = (pinCount + 63) / 64

namespace PinRegistry

def create (pinCount : Nat) : PinRegistry where
  pinCount := pinCount
  words := Array.replicate ((pinCount + 63) / 64) 0
  size_words := Array.size_replicate

instance : Inhabited PinRegistry := ⟨create 0⟩

/-- The word that holds the bit of a pin. -/
def wordIndex (pin : Pin) : Nat := pin.number.toNat / 64

/-- The bit of a pin in its word. -/
def mask (pin : Pin) : UInt64 := 1 <<< UInt64.ofNat (pin.number.toNat % 64)

def contains (reg : PinRegistry) (pin : Pin) : Bool :=
  pin.number.toNat < reg.pinCount

def isSet (reg : PinRegistry) (pin : Pin) : Bool :=
  reg.words.getD (wordIndex pin) 0 &&& mask pin != 0

def setBit (reg : PinRegistry) (pin : Pin) : PinRegistry where
  pinCount := reg.pinCount
  words := reg.words.modify (wordIndex pin) (· ||| mask pin)
  size_words := Array.size_modify.trans reg.size_words

def clearBit (reg : PinRegistry) (pin : Pin) : PinRegistry where
  pinCount := reg.pinCount
  words := reg.words.modify (wordIndex pin) (· &&& ~~~(mask pin))
  size_words := Array.size_modify.trans reg.size_words

/-- Whether a pin is claimed. A pin that the registry does not have never is. -/
def isClaimed (reg : PinRegistry) (pin : Pin) : Bool :=
  reg.contains pin && reg.isSet pin

/-- Refuses a pin that is claimed or unknown, and claims nothing. -/
def checkFree (reg : PinRegistry) (pin : Pin) : Except Error Unit :=
  if !reg.contains pin then .error (.config (.invalidPin pin))
  else if reg.isClaimed pin then .error (.config (.pinInUse pin))
  else .ok ()

/-- The first fault in a list of wanted pins: a pin that the registry does not have, or one that
stands among the pins `earlier` in the list. -/
def faultIn? (reg : PinRegistry) : List Pin → List Pin → Option ConfigError
  | _, [] => none
  | earlier, pin :: rest =>
    if !reg.contains pin then some (.invalidPin pin)
    else if earlier.any (·.same pin) then some (.duplicatePin pin)
    else faultIn? reg (pin :: earlier) rest

/-- Claims all of the pins. If one is unknown, wanted twice or already claimed, claims none. -/
def claimAll (reg : PinRegistry) (pins : List Pin) : Except Error PinRegistry :=
  match reg.faultIn? [] pins with
  | some fault => .error (.config fault)
  | none =>
    match pins.find? reg.isSet with
    | some busy => .error (.config (.pinInUse busy))
    | none => .ok (pins.foldl setBit reg)

/-- What a refused claim tells the log: only that a pin is held by someone else. -/
def claimNote (log : Log) : Error → Log
  | .config (.pinInUse pin) => log.note .debug s!"pin: {pin.label} already claimed"
  | _ => log

/-- Gives a pin back if the registry has it. -/
def release (reg : PinRegistry) (pin : Pin) : PinRegistry :=
  if reg.contains pin then reg.clearBit pin else reg

def releaseAll (reg : PinRegistry) (pins : List Pin) : PinRegistry :=
  pins.foldl release reg

def bitCount (word : UInt64) : Nat :=
  (List.range 64).countP fun i => word.toNat.testBit i

def claimedCount (reg : PinRegistry) : Nat :=
  reg.words.foldl (fun count word => count + bitCount word) 0

def describe (reg : PinRegistry) : String :=
  s!"PinRegistry \x7b pin_count: {reg.pinCount}, claimed: {reg.claimedCount} \x7d"

@[simp] theorem pinCount_setBit (reg : PinRegistry) (pin : Pin) :
    (reg.setBit pin).pinCount = reg.pinCount := rfl

@[simp] theorem pinCount_release (reg : PinRegistry) (pin : Pin) :
    (reg.release pin).pinCount = reg.pinCount := by
  unfold release
  split <;> rfl

@[simp] theorem pinCount_releaseAll (reg : PinRegistry) (pins : List Pin) :
    (reg.releaseAll pins).pinCount = reg.pinCount := by
  unfold releaseAll
  induction pins generalizing reg with
  | nil => rfl
  | cons pin pins ih => rw [List.foldl_cons, ih, pinCount_release]

end PinRegistry
end SerialLine
