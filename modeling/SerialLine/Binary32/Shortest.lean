import SerialLine.Binary32
/-!
# Shortest decimals

`shortest` finds the fewest decimal digits that read back as a given positive number, the nearest of
them if there are several. `text` lays them out: positional from `0.0001` up to `10 ^ 16`, always
with a point, and with an exponent outside that range.
-/
set_option autoImplicit false

namespace SerialLine.Binary32

/-- A positive decimal `digits * 10 ^ exponent`. -/
structure Digits where
  digits : Nat
  exponent : Int

namespace Digits

def ratio (d : Digits) : Nat × Nat :=
  if 0 ≤ d.exponent then (d.digits * Nat.pow 10 d.exponent.toNat, 1)
  else (d.digits, Nat.pow 10 (-d.exponent).toNat)

def readsAs (d : Digits) (pattern : Nat) : Bool :=
  patternOfUnits (d.ratio.1 * unitsPerOne) d.ratio.2 = pattern

end Digits

/-- The decimal exponent of the leading digit of `units` units, found by counting down from `high`. -/
def leadingExponent (units : Nat) : Nat → Int → Int
  | 0, high => high
  | rounds + 1, high =>
    let d : Digits := ⟨1, high⟩
    if d.ratio.1 * unitsPerOne ≤ units * d.ratio.2 then high
    else leadingExponent units rounds (high - 1)

/-- The two neighbours of `units` units on the grid of multiples of `10 ^ exponent`, nearer first. -/
def neighbours (units : Nat) (exponent : Int) : List Digits :=
  let (num, den) := (Digits.ratio ⟨1, exponent⟩)
  let step := num * unitsPerOne
  let below := units * den / step
  let gap := units * den % step
  let low : Digits := ⟨below, exponent⟩
  let high : Digits := ⟨below + 1, exponent⟩
  if 2 * gap < step then [low, high] else [high, low]

/-- The coarsest grid on which a decimal reads back, tried from one digit on. -/
def searchGrids (x : Binary32) (leading : Int) : Nat → Nat → Digits
  | 0, count => ⟨0, leading - count⟩
  | rounds + 1, count =>
    match (neighbours x.units (leading + 1 - count)).find? (·.readsAs x.pattern) with
    | some d => d
    | none => searchGrids x leading rounds (count + 1)

/-- The decimal with the fewest digits that reads back as a positive finite number. -/
def shortest (x : Binary32) : Digits :=
  searchGrids x (leadingExponent x.units 90 39) 12 1

/-- Digits without the zeros at their end, which then count into the exponent. -/
def Digits.trim : Nat → Digits → Digits
  | 0, d => d
  | rounds + 1, d =>
    if d.digits ≠ 0 ∧ d.digits % 10 = 0 then trim rounds ⟨d.digits / 10, d.exponent + 1⟩ else d

/-- Lays out a decimal with a point and no exponent. -/
def Digits.positional (d : Digits) : String :=
  let ds := (toString d.digits).toList
  if 0 ≤ d.exponent then
    String.ofList (ds ++ List.replicate d.exponent.toNat '0' ++ ['.', '0'])
  else
    let places := (-d.exponent).toNat
    let ds := List.replicate (places + 1 - ds.length) '0' ++ ds
    String.ofList (ds.take (ds.length - places) ++ '.' :: ds.drop (ds.length - places))

/-- Lays out a decimal with one digit before the point and an exponent. -/
def Digits.scientific (d : Digits) : String :=
  let ds := (toString d.digits).toList
  let exponent := d.exponent + (ds.length - 1 : Nat)
  let fraction := if ds.length ≤ 1 then [] else '.' :: ds.drop 1
  String.ofList (ds.take 1 ++ fraction ++ 'e' :: (toString exponent).toList)

def text (x : Binary32) : String :=
  if x.isNaN then "NaN"
  else
    let sign := if x.isNegative then "-" else ""
    if !x.isFinite then sign ++ "inf"
    else if x.units = 0 then sign ++ "0.0"
    else
      let d := x.shortest.trim 12
      let leading := d.exponent + ((toString d.digits).length - 1 : Nat)
      sign ++ if -4 ≤ leading ∧ leading < 16 then d.positional else d.scientific

end SerialLine.Binary32
