/-!
# Unsigned numerals

The written form of a 32-bit number: an optional plus sign and at least one digit, decimal, or
hexadecimal in either case after `0x` or `0X`. Leading zeros are allowed; a value of `2 ^ 32` or more
is refused.
-/
set_option autoImplicit false

namespace SerialLine.Numeral

/-- The value of a digit, decimal or a hexadecimal letter of either case. -/
def digitValue? (c : Char) : Option Nat :=
  if '0' ≤ c ∧ c ≤ '9' then some (c.toNat - '0'.toNat)
  else if 'a' ≤ c ∧ c ≤ 'f' then some (c.toNat - 'a'.toNat + 10)
  else if 'A' ≤ c ∧ c ≤ 'F' then some (c.toNat - 'A'.toNat + 10)
  else none

def isDigit (base : Nat) (c : Char) : Bool :=
  match digitValue? c with
  | some d => d < base
  | none => false

/-- The positional value of digits to the given base. -/
def value (base : Nat) (ds : List Char) : Nat :=
  ds.foldl (fun n c => base * n + (digitValue? c).getD 0) 0

/-- The digits of a text that may begin with a plus sign. -/
def unsigned : List Char → List Char
  | '+' :: rest => rest
  | rest => rest

/-- Reads digits to the given base after an optional plus sign. -/
def readBase? (base : Nat) (text : List Char) : Option UInt32 :=
  let ds := unsigned text
  if ds.isEmpty || !ds.all (isDigit base) then none
  else if value base ds < Nat.pow 2 32 then some (UInt32.ofNat (value base ds))
  else none

def read? : List Char → Option UInt32
  | '0' :: 'x' :: rest => readBase? 16 rest
  | '0' :: 'X' :: rest => readBase? 16 rest
  | text => readBase? 10 text

end SerialLine.Numeral
