import SerialLine.Binary32
/-!
# Reading numbers

A written number is an optional sign and then either digits with at most one point and an optional
exponent, or one of the words `inf`, `infinity` and `nan` in any case. `ofText?` gives the nearest
representable number and refuses every other text.
-/
set_option autoImplicit false

namespace SerialLine.Binary32

def digitsValue (ds : List Char) : Nat :=
  ds.foldl (fun n d => 10 * n + (d.toNat - '0'.toNat)) 0

/-- A written decimal: `digits` times ten to the `exponent`. -/
structure Decimal where
  digits : List Char
  exponent : Int

/-- Splits a sign off a text; no sign means positive. -/
def splitSign : List Char → Bool × List Char
  | '-' :: rest => (true, rest)
  | '+' :: rest => (false, rest)
  | rest => (false, rest)

/-- Reads an exponent: an optional sign and at least one digit, to the end of the text. -/
def readExponent? (text : List Char) : Option Int :=
  let (negative, ds) := splitSign text
  if ds.isEmpty || !ds.all Char.isDigit then none
  else some (if negative then -(digitsValue ds : Int) else digitsValue ds)

/-- Reads what follows the digits of a decimal: nothing, or the letter `e` and an exponent. -/
def readScale? : List Char → Option Int
  | [] => some 0
  | c :: rest => if c = 'e' || c = 'E' then readExponent? rest else none

/-- Reads an unsigned decimal. At least one digit stands before or after the point. -/
def Decimal.ofText? (text : List Char) : Option Decimal := do
  let whole := text.takeWhile Char.isDigit
  let rest := text.dropWhile Char.isDigit
  let (fraction, rest) := match rest with
    | '.' :: rest => (rest.takeWhile Char.isDigit, rest.dropWhile Char.isDigit)
    | rest => ([], rest)
  if whole.isEmpty && fraction.isEmpty then none
  else
    let scale ← readScale? rest
    return ⟨whole ++ fraction, scale - fraction.length⟩

/-- The number nearest to a decimal. A value of 10 ^ 50 and more is infinite and one below 10 ^ -50
is zero, so that no power of ten larger than that is ever formed. -/
def Decimal.nearest (negative : Bool) (d : Decimal) : Binary32 :=
  let ds := d.digits.dropWhile (· = '0')
  let value := digitsValue ds
  let top := d.exponent + ds.length
  if value = 0 || top < -50 then ofRatio negative 0 1
  else if 50 < top then infinity negative
  else if 0 ≤ d.exponent then ofRatio negative (value * Nat.pow 10 d.exponent.toNat) 1
  else ofRatio negative value (Nat.pow 10 (-d.exponent).toNat)

def ofText? (text : String) : Option Binary32 :=
  let (negative, rest) := splitSign text.toList
  match String.ofList (rest.map Char.toLower) with
  | "inf" => some (infinity negative)
  | "infinity" => some (infinity negative)
  | "nan" => some (undefined negative)
  | _ => (Decimal.ofText? rest).map (Decimal.nearest negative)

end SerialLine.Binary32
