/-!
# Parity

The three parity modes, their names as users write them and the letters of a frame description.
-/
set_option autoImplicit false

namespace SerialLine

/-- What the parity bit of a frame carries, if the frame has one. -/
inductive Parity where
  | none
  | even
  | odd
  deriving DecidableEq, Inhabited

namespace Parity

def name : Parity → String
  | none => "NONE"
  | even => "EVEN"
  | odd => "ODD"

/-- The name with the place where users find it. -/
def qualifiedName (p : Parity) : String :=
  s!"busio.UART.Parity.{p.name}"

/-- The name inside a listing of fields. -/
def describe : Parity → String
  | none => "None"
  | even => "Even"
  | odd => "Odd"

/-- The letter of a mode in a frame description such as `8N1`. -/
def letter : Parity → String
  | none => "N"
  | even => "E"
  | odd => "O"

/-- Reads a name, taking no account of the case of ASCII letters. -/
def ofName? (text : String) : Option Parity :=
  [none, even, odd].find? fun p => text.toList.map Char.toUpper = p.name.toList

def bitCount : Parity → Nat
  | none => 0
  | _ => 1

theorem ofName?_name (p : Parity) : ofName? p.name = some p := by
  cases p <;> decide

end Parity
end SerialLine
