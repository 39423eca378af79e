import SerialLine.Binary32
import SerialLine.Error
/-!
# Timeouts

A timeout is a number of seconds between 0 and 100. Waits count whole milliseconds.
-/
set_option autoImplicit false

namespace SerialLine.Timeout

/-- The longest timeout, in seconds. -/
def longest : Binary32 := ⟨0x42C80000⟩

/-- The timeout of a line for which none is given: one second. -/
def standard : Binary32 := Binary32.one

def maxMillis : Nat := Nat.pow 2 64 - 1

/-- Whether a number of seconds is a timeout. Zero counts whatever its sign. -/
def isValid (seconds : Binary32) : Bool :=
  seconds.isFinite && seconds.units ≤ longest.units
    && (!seconds.isNegative || seconds.units = 0)

def check (seconds : Binary32) : Except Error Unit :=
  if isValid seconds then .ok () else .error (.config .invalidTimeout)

/-- A thousand times a positive finite number, rounded to a 32-bit number again. -/
def thousandfold (seconds : Binary32) : Binary32 :=
  ⟨(Binary32.patternOfUnits (seconds.units * 1000) 1).toUInt32⟩

/-- The whole milliseconds in a number of seconds: none in a negative or undefined one, and never
more than `maxMillis`. -/
def millis (seconds : Binary32) : Nat :=
  if !seconds.isFinite || seconds.isNegative then 0
  else
    let product := thousandfold seconds
    if product.isFinite then min maxMillis (product.units / Binary32.unitsPerOne) else maxMillis

theorem check_eq_ok_iff (seconds : Binary32) :
    check seconds = .ok () ↔ isValid seconds = true := by
  unfold check
  split <;> simp_all

theorem isValid_standard : isValid standard = true := by
  decide +kernel

end SerialLine.Timeout
