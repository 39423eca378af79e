import Mathlib.Algebra.Order.Round
import Mathlib.Data.Rat.Floor
import Mathlib.Tactic.FieldSimp
import Mathlib.Tactic.Ring
import SerialLine.Pl011.Framing
/-! # The nearest divisor

The divisor of a PL011 block for a rate, against the quotient of its clock that it stands for.

* `ideal`: the divisor in 64ths before it is rounded, a rational number.
* `quotient_eq_round`: the quotient is the ideal one rounded to the nearest, a half upwards.
* `toNat_quotientWord`: words of 64 bits are wide enough to find it.
* `nearest?_eq_ok_iff`: which divisors are found, and for which rates.
* `nearest?_rounds`: all that is promised of a divisor, and that it falls with the rate and rises with
  the clock.
-/
set_option autoImplicit false

namespace SerialLine.Pl011.Divisor

variable {clock clock' baudrate baudrate' : UInt32} {d d' : Divisor}

/-- The divisor for a rate in 64ths, not rounded. -/
def ideal (clock baudrate : UInt32) : ℚ := 4 * clock.toNat / baudrate.toNat

/-- A divisor in 64ths. -/
def sixtyFourths (d : Divisor) : Nat := 64 * d.whole.toNat + d.fraction.toNat

/-! ## Rounding -/

theorem quotient_eq_div (clock baudrate : UInt32) :
    quotient clock baudrate = (8 * clock.toNat + baudrate.toNat) / (2 * baudrate.toNat) := by
  have hhalf : (8 * clock.toNat + baudrate.toNat) / 2 = clock.toNat * 4 + baudrate.toNat / 2 := by omega
  rw [← Nat.div_div_eq_div_mul, hhalf, quotient]

/-- Half a rate is cut down to a whole number before the division, which does not matter. -/
theorem quotient_eq_round (clock baudrate : UInt32) :
    (quotient clock baudrate : ℤ) = round (ideal clock baudrate) := by
  by_cases hzero : baudrate.toNat = 0
  · simp [quotient, ideal, hzero]
  · have hrate : (baudrate.toNat : ℚ) ≠ 0 := Nat.cast_ne_zero.mpr hzero
    have hsum : ideal clock baudrate + 1 / 2 =
        ((8 * clock.toNat + baudrate.toNat : ℕ) : ℚ) / ((2 * baudrate.toNat : ℕ) : ℚ) := by
      unfold ideal
      push_cast
      field_simp
      ring
    rw [round_eq, hsum, Rat.floor_natCast_div_natCast, quotient_eq_div]
    rfl

/-- The divisor is off by half a 64th at the most. -/
theorem quotient_near (hrate : 0 < baudrate.toNat) :
    2 * |(quotient clock baudrate * baudrate.toNat : ℤ) - 4 * clock.toNat| ≤ baudrate.toNat := by
  have hdiv := Nat.div_add_mod (clock.toNat * 4 + baudrate.toNat / 2) baudrate.toNat
  have hmod := Nat.mod_lt (clock.toNat * 4 + baudrate.toNat / 2) hrate
  have hquotient : baudrate.toNat * ((clock.toNat * 4 + baudrate.toNat / 2) / baudrate.toNat) =
      quotient clock baudrate * baudrate.toNat := Nat.mul_comm _ _
  rw [hquotient] at hdiv
  have hoff : |(quotient clock baudrate * baudrate.toNat : ℤ) - 4 * clock.toNat| ≤
      (baudrate.toNat / 2 : ℕ) := by
    rw [← Nat.cast_mul, abs_le]
    omega
  omega

/-! ## Clocks and rates -/

theorem round_mono {x y : ℚ} (h : x ≤ y) : round x ≤ round y := by
  rw [round_eq, round_eq]
  exact Int.floor_le_floor (add_le_add_left h _)

theorem ideal_mono (baudrate : UInt32) (h : clock ≤ clock') : ideal clock baudrate ≤ ideal clock' baudrate := by
  have hle : (clock.toNat : ℚ) ≤ clock'.toNat := Nat.cast_le.mpr (UInt32.le_iff_toNat_le.mp h)
  exact div_le_div_of_nonneg_right (mul_le_mul_of_nonneg_left hle (by norm_num)) (Nat.cast_nonneg _)

theorem ideal_anti (clock : UInt32) (hrate : 0 < baudrate.toNat) (h : baudrate ≤ baudrate') :
    ideal clock baudrate' ≤ ideal clock baudrate := by
  have hle : (baudrate.toNat : ℚ) ≤ baudrate'.toNat := Nat.cast_le.mpr (UInt32.le_iff_toNat_le.mp h)
  exact div_le_div_of_nonneg_left (by positivity) (Nat.cast_pos.mpr hrate) hle

/-! ## Words -/

/-- The quotient as words of 64 bits give it. -/
def quotientWord (clock baudrate : UInt32) : UInt64 :=
  (clock.toUInt64 * 4 + baudrate.toUInt64 / 2) / baudrate.toUInt64

/-- No step on the way to the quotient needs more than 64 bits. -/
theorem dividend_lt (clock baudrate : UInt32) : clock.toNat * 4 + baudrate.toNat / 2 < 2 ^ 64 := by
  have hclock := clock.toNat_lt
  have hrate := baudrate.toNat_lt
  omega

theorem toNat_quotientWord (clock baudrate : UInt32) :
    (quotientWord clock baudrate).toNat = quotient clock baudrate := by
  have hsum := dividend_lt clock baudrate
  have hproduct : clock.toNat * 4 < 2 ^ 64 := by omega
  unfold quotientWord quotient
  rw [UInt64.toNat_div, UInt64.toNat_add, UInt64.toNat_mul, UInt64.toNat_div, UInt32.toNat_toUInt64,
    UInt32.toNat_toUInt64]
  show (clock.toNat * 4 % 2 ^ 64 + baudrate.toNat / 2) % 2 ^ 64 / baudrate.toNat = _
  rw [Nat.mod_eq_of_lt hproduct, Nat.mod_eq_of_lt hsum]

/-! ## What is found -/

theorem nearest?_eq_ok_iff : nearest? clock baudrate = .ok d ↔
    0 < baudrate.toNat ∧ 64 ≤ quotient clock baudrate ∧ quotient clock baudrate < 2 ^ 22 ∧
      d = ⟨UInt32.ofNat (quotient clock baudrate / 64), UInt32.ofNat (quotient clock baudrate % 64)⟩ := by
  have hzero : baudrate = 0 ↔ baudrate.toNat = 0 := by rw [← UInt32.toNat_inj]; rfl
  unfold nearest?
  by_cases hrate : baudrate = 0
  · rw [if_pos hrate]
    simp [hzero.mp hrate]
  · have hpos : 0 < baudrate.toNat := Nat.pos_of_ne_zero (hzero.not.mp hrate)
    rw [if_neg hrate]
    by_cases hrange : quotient clock baudrate / 64 = 0 ∨ 0xFFFF < quotient clock baudrate / 64
    · simp only [if_pos hrange, reduceCtorEq, false_iff]
      omega
    · simp only [if_neg hrange, Except.ok.injEq]
      constructor
      · rintro rfl
        exact ⟨hpos, by omega, by omega, rfl⟩
      · rintro ⟨-, -, -, rfl⟩
        rfl

theorem refused_of_error {e : Error} (h : nearest? clock baudrate = .error e) :
    e = .config (.invalidBaudrate baudrate) := by
  unfold nearest? at h
  dsimp only at h
  split_ifs at h
  · exact (Except.error.inj h).symm
  · exact (Except.error.inj h).symm

theorem fields_of_found (h : nearest? clock baudrate = .ok d) :
    d.whole.toNat = quotient clock baudrate / 64 ∧ d.fraction.toNat = quotient clock baudrate % 64 := by
  obtain ⟨-, -, hrange, rfl⟩ := nearest?_eq_ok_iff.mp h
  exact ⟨UInt32.toNat_ofNat_of_lt' (by change _ < 2 ^ 32; omega),
    UInt32.toNat_ofNat_of_lt' (by change _ < 2 ^ 32; omega)⟩

theorem sixtyFourths_of_found (h : nearest? clock baudrate = .ok d) :
    d.sixtyFourths = quotient clock baudrate := by
  obtain ⟨hwhole, hfraction⟩ := fields_of_found h
  rw [sixtyFourths, hwhole, hfraction]
  exact Nat.div_add_mod _ _

/-- The two parts are cut out of the word with a shift and a mask. -/
theorem words_of_found (h : nearest? clock baudrate = .ok d) :
    d.whole = (quotientWord clock baudrate >>> 6).toUInt32 ∧
      d.fraction = (quotientWord clock baudrate &&& 0x3F).toUInt32 := by
  obtain ⟨hwhole, hfraction⟩ := fields_of_found h
  obtain ⟨-, -, hrange, -⟩ := nearest?_eq_ok_iff.mp h
  have hmask : quotient clock baudrate &&& 63 = quotient clock baudrate % 64 :=
    Nat.and_two_pow_sub_one_eq_mod _ 6
  rw [← UInt32.toNat_inj, ← UInt32.toNat_inj, hwhole, hfraction, UInt64.toNat_toUInt32,
    UInt64.toNat_toUInt32, UInt64.toNat_shiftRight, UInt64.toNat_and, toNat_quotientWord]
  show _ = quotient clock baudrate >>> 6 % 2 ^ 32 ∧ _ = (quotient clock baudrate &&& 63) % 2 ^ 32
  rw [hmask, Nat.shiftRight_eq_div_pow]
  omega

/-- What is promised of the divisor of a clock for a rate. -/
structure NearestContract (clock baudrate : UInt32) : Prop where
  /-- There is one exactly if the ideal divisor, rounded, has a whole part of 16 bits that is not zero. -/
  found : (∃ d, nearest? clock baudrate = .ok d) ↔
    0 < baudrate.toNat ∧ 64 ≤ round (ideal clock baudrate) ∧ round (ideal clock baudrate) < 2 ^ 22
  refused : ∀ e, nearest? clock baudrate = .error e → e = .config (.invalidBaudrate baudrate)
  whole : ∀ d, nearest? clock baudrate = .ok d → 1 ≤ d.whole.toNat ∧ d.whole.toNat ≤ 65535
  fraction : ∀ d, nearest? clock baudrate = .ok d → d.fraction.toNat < 64
  rounded : ∀ d, nearest? clock baudrate = .ok d → (d.sixtyFourths : ℤ) = round (ideal clock baudrate)
  near : ∀ d, nearest? clock baudrate = .ok d →
    2 * |(d.sixtyFourths * baudrate.toNat : ℤ) - 4 * clock.toNat| ≤ baudrate.toNat
  /-- Nothing overflows on the way to the quotient in words of 64 bits, and nothing is cut off when its
  parts are made words of 32 bits. -/
  fits : clock.toNat * 4 + baudrate.toNat / 2 < 2 ^ 64 ∧
    (quotientWord clock baudrate).toNat = quotient clock baudrate ∧
    ∀ d, nearest? clock baudrate = .ok d →
      d.whole = (quotientWord clock baudrate >>> 6).toUInt32 ∧
        d.fraction = (quotientWord clock baudrate &&& 0x3F).toUInt32
  /-- A faster rate has no larger divisor. -/
  anti : ∀ baudrate' d d', baudrate ≤ baudrate' → nearest? clock baudrate = .ok d →
    nearest? clock baudrate' = .ok d' → d'.sixtyFourths ≤ d.sixtyFourths
  /-- A faster clock has no smaller one. -/
  mono : ∀ clock' d d', clock ≤ clock' → nearest? clock baudrate = .ok d →
    nearest? clock' baudrate = .ok d' → d.sixtyFourths ≤ d'.sixtyFourths

/-- The divisor that is found for a rate is the nearest one, and one is found whenever it can be
written down. -/
theorem nearest?_rounds (clock baudrate : UInt32) : NearestContract clock baudrate := by
  have hrounded (clock baudrate : UInt32) (d : Divisor) (h : nearest? clock baudrate = .ok d) :
      (d.sixtyFourths : ℤ) = round (ideal clock baudrate) := by
    rw [sixtyFourths_of_found h, quotient_eq_round]
  refine ⟨?_, fun e => refused_of_error, fun d hd => ?_, fun d hd => ?_, hrounded clock baudrate,
    fun d hd => ?_, ⟨dividend_lt _ _, toNat_quotientWord _ _, fun d => words_of_found⟩,
    fun baudrate' d d' hle hd hd' => ?_, fun clock' d d' hle hd hd' => ?_⟩
  · have hround := quotient_eq_round clock baudrate
    constructor
    · rintro ⟨d, hd⟩
      obtain ⟨hrate, hlow, hhigh, -⟩ := nearest?_eq_ok_iff.mp hd
      exact ⟨hrate, by omega, by omega⟩
    · rintro ⟨hrate, hlow, hhigh⟩
      exact ⟨_, nearest?_eq_ok_iff.mpr ⟨hrate, by omega, by omega, rfl⟩⟩
  · obtain ⟨-, hlow, hhigh, -⟩ := nearest?_eq_ok_iff.mp hd
    obtain ⟨hwhole, -⟩ := fields_of_found hd
    omega
  · obtain ⟨-, hfraction⟩ := fields_of_found hd
    omega
  · rw [sixtyFourths_of_found hd]
    exact quotient_near (nearest?_eq_ok_iff.mp hd).1
  · have hround := round_mono (ideal_anti clock (nearest?_eq_ok_iff.mp hd).1 hle)
    rw [← hrounded _ _ d hd, ← hrounded _ _ d' hd'] at hround
    exact Int.ofNat_le.mp hround
  · have hround := round_mono (ideal_mono baudrate hle)
    rw [← hrounded _ _ d hd, ← hrounded _ _ d' hd'] at hround
    exact Int.ofNat_le.mp hround

/-- A divisor of 64 and a half 64ths is rounded upwards. -/
example : nearest? 129 8 = .ok ⟨1, 1⟩ := by decide

end SerialLine.Pl011.Divisor
