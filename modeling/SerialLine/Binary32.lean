/-!
# 32-bit floating point numbers

A number is its 32-bit pattern. Every finite number is a whole multiple of the smallest positive one,
`2 ^ -149`, so magnitudes are natural numbers in that unit and comparisons and roundings are exact
arithmetic on them. `ofRatio` rounds a quotient to the nearest number, a tie to the even pattern.
-/
set_option autoImplicit false

namespace SerialLine

/-- A 32-bit floating point number, told apart by its pattern. -/
structure Binary32 where
  bits : UInt32
  deriving DecidableEq, Inhabited

namespace Binary32

/-- How many of the smallest positive number make one. -/
def unitsPerOne : Nat := Nat.pow 2 149

/-- The patterns from here on, below the sign bit, are not finite. -/
def infinityPattern : Nat := 0x7F800000

/-- The pattern without the sign bit. -/
def pattern (x : Binary32) : Nat :=
  x.bits.toNat % Nat.pow 2 31

def isNegative (x : Binary32) : Bool :=
  Nat.pow 2 31 ≤ x.bits.toNat

def isFinite (x : Binary32) : Bool :=
  x.pattern < infinityPattern

def isNaN (x : Binary32) : Bool :=
  infinityPattern < x.pattern

/-- The magnitude of a finite pattern, counted in the smallest positive number. -/
def unitsOfPattern (p : Nat) : Nat :=
  if p < Nat.pow 2 23 then p
  else (Nat.pow 2 23 + p % Nat.pow 2 23) * Nat.pow 2 (p / Nat.pow 2 23 - 1)

def units (x : Binary32) : Nat :=
  unitsOfPattern x.pattern

/-- The nearest whole number to `num / den`, of two equally near the even one. -/
def roundHalfEven (num den : Nat) : Nat :=
  let q := num / den
  let r := num % den
  if 2 * r < den then q
  else if den < 2 * r then q + 1
  else q + q % 2

/-- The pattern nearest to `num / den` units, at most that of infinity.

A magnitude of `2 ^ (23 + e)` units and more is counted in steps of `2 ^ e`; the pattern is then the
number of steps on top of `e` binades, which also covers a count that rounds up to the next binade. -/
def patternOfUnits (num den : Nat) : Nat :=
  let e := Nat.log2 (num / den) - 23
  min infinityPattern (e * Nat.pow 2 23 + roundHalfEven num (den * Nat.pow 2 e))

def ofRatio (negative : Bool) (num den : Nat) : Binary32 :=
  let p := patternOfUnits (num * unitsPerOne) den
  ⟨(if negative then Nat.pow 2 31 + p else p).toUInt32⟩

def infinity (negative : Bool) : Binary32 :=
  ⟨if negative then 0xFF800000 else 0x7F800000⟩

def undefined (negative : Bool) : Binary32 :=
  ⟨if negative then 0xFFC00000 else 0x7FC00000⟩

def one : Binary32 := ⟨0x3F800000⟩

theorem units_one : one.units = unitsPerOne := by
  decide +kernel

theorem ofRatio_one : ofRatio false 1 1 = one := by
  decide +kernel

end Binary32
end SerialLine
