/-
# SciCalc.Proofs.Binary64.Finite -- operations on doubles that stay finite

The four operations on finite doubles give numbers, if the divisor is not zero;
whether a number is too large is asked where they are used.  Nothing has to be
asked of the other operations here: the square root of what is not below zero,
an angle in radians, a whole number next to a finite double, the remainder after
division by a half turn and the factorials up to the greatest are finite.

The comparisons with zero and with the greatest factorial that guard some of them
are read off the parts of a double.
-/
import Mathlib
import SciCalc.Arithmetic
import SciCalc.Proofs.Binary64.Rounding

namespace SciCalc

set_option autoImplicit false

namespace Binary64

open Float.Model Float.Model.UnpackedFloat

variable {v a b : Float}

/-! ## The four operations -/

theorem isNaN_add (finite : a.isFinite = true) (finite' : b.isFinite = true) :
    (a + b).isNaN = false :=
  isNaN_packed (isNaN_add_of_within (within_of_isFinite finite) (within_of_isFinite finite'))

theorem isNaN_sub (finite : a.isFinite = true) (finite' : b.isFinite = true) :
    (a - b).isNaN = false :=
  isNaN_packed (isNaN_sub_of_within (within_of_isFinite finite) (within_of_isFinite finite'))

theorem isNaN_mul (finite : a.isFinite = true) (finite' : b.isFinite = true) :
    (a * b).isNaN = false :=
  isNaN_packed (isNaN_mul_of_within (within_of_isFinite finite) (within_of_isFinite finite'))

theorem isNaN_div (number : a.isNaN = false) (finite' : b.isFinite = true)
    (some : (b == 0) = false) : (a / b).isNaN = false :=
  isNaN_packed (isNaN_div_of_within number (within_of_isFinite finite') some)

theorem lt_iff : a < b ↔ (unpacked a).lt (unpacked b) = true := decide_eq_true_iff

theorem le_iff : a ≤ b ↔ (unpacked a).le (unpacked b) = true := decide_eq_true_iff

theorem unpacked_zero : unpacked 0 = .zero .positive := rfl

/-- A number from zero on has a finite square root. -/
theorem isFinite_sqrt (finite : v.isFinite = true) (notBelow : ¬ v < 0) :
    v.sqrt.isFinite = true := by
  rw [lt_iff, unpacked_zero, Bool.not_eq_true] at notBelow
  exact isFinite_packed_iff.2 (fits_sqrt (within_of_isFinite finite) notBelow)

/-- Of the finite doubles those that are not up to zero are above it. -/
theorem pos_of_not_nonpos (finite : v.isFinite = true) (above : ¬ v ≤ 0) : 0 < v := by
  have within := within_of_isFinite finite
  rw [le_iff, unpacked_zero, Bool.not_eq_true] at above
  rw [lt_iff, unpacked_zero]
  generalize unpacked v = u at within above
  cases within with
  | zero s => cases above
  | finite s pos short low =>
      cases s with
      | negative => cases above
      | positive => rfl

/-- What compares equal to zero is finite. -/
theorem isFinite_of_beq_zero (zero : (v == 0) = true) : v.isFinite = true := by
  change (unpacked v).beq (unpacked 0) = true at zero
  show (unpacked v).isFinite = true
  rw [unpacked_zero] at zero
  generalize unpacked v = u at zero
  cases u with
  | notANumber => cases zero
  | infinity s => cases s <;> cases zero
  | _ => rfl

/-! ## Angles -/

/-- An angle in radians is finite if it is in degrees. -/
theorem isFinite_radiansOfDegrees (finite : v.isFinite = true) :
    (AngleMode.radiansOfDegrees v).isFinite = true := by
  have factor : (pi / 180.0).isFinite = true ∧ exponent (pi / 180.0) ≤ -54 := by decide +kernel
  exact isFinite_packed_iff.2
    (fits_mul (within_of_isFinite finite) (within_unpacked factor.1 factor.2))

/-! ## Products -/

/-- A product that is finite has a finite first factor. -/
theorem isFinite_of_mul (finite : (a * b).isFinite = true) : a.isFinite = true := by
  have fits : Fits (UnpackedFloat.mul Format.binary64 (unpacked a) (unpacked b)) :=
    isFinite_packed_iff.1 finite
  show (unpacked a).isFinite = true
  generalize unpacked a = x at fits
  generalize unpacked b = y at fits
  cases x with
  | notANumber => exact fits.elim
  | infinity s => cases y <;> exact fits.elim
  | _ => rfl

/-- Every product `1 · 2 · … · n` up to the greatest factorial is finite. -/
theorem isFinite_product {n : Nat} (small : n ≤ 170) :
    (Arithmetic.product n).isFinite = true := by
  have greatest : (Arithmetic.product 170).isFinite = true := by decide +kernel
  induction small using Nat.decreasingInduction with
  | self => exact greatest
  | of_succ n below ih => exact isFinite_of_mul ih

/-! ## Whole numbers and remainders -/

theorem isFinite_nearest {num den k : Nat} (pos : 0 < den) (below : num < den * 2 ^ k)
    (small : k ≤ 1023) : (nearest num den).isFinite = true := by
  have bits := nearestBits_le_of_lt pos below
  rw [isFinite_iff, exponentField_def, toNat_toBits_nearest]
  omega

theorem isFinite_signedNearest {num den : Nat} (finite : (nearest num den).isFinite = true)
    (negative : Bool) : (signedNearest negative num den).isFinite = true := by
  cases negative with
  | false => exact finite
  | true => exact isFinite_neg finite

/-- A finite double is a whole number, or it is below 2 ^ 53. -/
theorem whole_or_small (v : Float) : denominator v = 1 ∨ numerator v < 2 ^ 53 := by
  have bound := fractionField_lt v
  rw [denominator_def, numerator_def]
  rcases Int.le_total 0 (exponent v) with whole | fractional
  · left
    rw [Int.toNat_eq_zero.2 (by omega)]
    rfl
  · right
    rw [Int.toNat_eq_zero.2 fractional, Nat.pow_zero, Nat.mul_one]
    rcases significand_spec v with ⟨-, stored, -⟩ | ⟨-, stored, -⟩ <;> omega

/-- A whole number next to the magnitude of a finite double is finite. -/
theorem isFinite_signedNearest_whole (finite : v.isFinite = true) (negative : Bool) {n : Nat}
    (exact' : denominator v = 1 → n = numerator v) (close : n ≤ numerator v + 1) :
    (signedNearest negative n 1).isFinite = true := by
  apply isFinite_signedNearest
  rcases whole_or_small v with whole | small
  · rw [exact' whole, ← whole, nearest_magnitude finite]
    exact isFinite_abs finite
  · exact isFinite_nearest (k := 54) (by decide) (by omega) (by decide)

/-- Rounding a fraction up takes no more than one step from its numerator. -/
theorem div_up_le {num den : Nat} (pos : 0 < den) : (num + (den - 1)) / den ≤ num := by
  have scaled := Nat.le_mul_of_pos_left num pos
  apply Nat.le_of_lt_succ
  apply Nat.div_lt_of_lt_mul
  rw [Nat.mul_succ]
  omega

theorem isFinite_floor (finite : v.isFinite = true) : (floor v).isFinite = true := by
  rw [floor, if_pos finite]
  apply isFinite_signedNearest_whole finite
  · intro whole
    simp [whole]
  · split
    · exact (div_up_le (denominator_pos v)).trans (Nat.le_succ _)
    · exact (Nat.div_le_self _ _).trans (Nat.le_succ _)

theorem isFinite_ceil (finite : v.isFinite = true) : (ceil v).isFinite = true := by
  rw [ceil, if_pos finite]
  apply isFinite_signedNearest_whole finite
  · intro whole
    simp [whole]
  · split
    · exact (Nat.div_le_self _ _).trans (Nat.le_succ _)
    · exact (div_up_le (denominator_pos v)).trans (Nat.le_succ _)

theorem isFinite_round (finite : v.isFinite = true) : (round v).isFinite = true := by
  rw [round, if_pos finite]
  apply isFinite_signedNearest_whole finite
  · intro whole
    rw [whole]
    omega
  · have pos := denominator_pos v
    have scaled := Nat.le_mul_of_pos_left (numerator v) pos
    apply Nat.le_of_lt_succ
    apply Nat.div_lt_of_lt_mul
    rw [Nat.mul_succ, Nat.mul_succ, Nat.mul_assoc]
    omega

/-- The remainder after division by a number below 256 is far from infinite. -/
theorem within_remainder (finite : v.isFinite = true) {k : Nat} (some : 0 < k) (small : k ≤ 256) :
    (remainder v k).isFinite = true ∧ Within 969 (unpacked (remainder v k)) := by
  have pos := denominator_pos v
  have rest : numerator v % (k * denominator v) < denominator v * 2 ^ 8 := by
    calc numerator v % (k * denominator v)
        < k * denominator v := Nat.mod_lt _ (Nat.mul_pos some pos)
      _ ≤ denominator v * 2 ^ 8 := by
          rw [Nat.mul_comm]
          exact Nat.mul_le_mul_left _ small
  have number := isFinite_nearest pos rest (by decide)
  have field :
      exponentField (nearest (numerator v % (k * denominator v)) (denominator v)) ≤ 1031 := by
    have bits := nearestBits_le_of_lt pos rest
    rw [exponentField_def, toNat_toBits_nearest]
    omega
  have signed : exponentField (remainder v k) ≤ 1031 := by
    rw [remainder, if_pos finite, signedNearest]
    split
    · rw [(fields_neg (isNaN_of_isFinite number)).2.1]
      exact field
    · exact field
  have whole : (remainder v k).isFinite = true := by
    rw [remainder, if_pos finite]
    exact isFinite_signedNearest number _
  refine ⟨whole, within_unpacked whole ?_⟩
  rcases significand_spec (remainder v k) with ⟨-, -, stored⟩ | ⟨-, -, stored⟩ <;> omega

theorem isFinite_leastRemainder (finite : v.isFinite = true) :
    (leastRemainder v 180).isFinite = true := by
  obtain ⟨number, small⟩ := within_remainder finite (k := 180) (by decide) (by decide)
  have period : (Float.ofNat 180).isFinite = true ∧ exponent (Float.ofNat 180) ≤ 969 := by
    decide +kernel
  unfold leastRemainder
  simp only
  split
  · exact isFinite_packed_iff.2 (fits_add small (within_unpacked period.1 period.2))
  · exact number

/-- The whole part of a double that is not above the greatest factorial is not above it either. -/
theorem truncateToNat_le (finite : v.isFinite = true) (small : ¬ factorialMax < v)
    (notBelow : ¬ v < 0) : truncateToNat v ≤ 170 := by
  have greatest : unpacked factorialMax = .finite .positive (170 * 2 ^ 45) (-45) (by decide) := rfl
  have short := fractionField_lt v
  have stored := significand_spec v
  rw [lt_iff, greatest, unpacked_eq finite, ofParts] at small
  rw [lt_iff, unpacked_zero, unpacked_eq finite, ofParts] at notBelow
  rw [truncateToNat, numerator_def, denominator_def]
  by_cases none : significand v = 0
  · rw [none, Nat.zero_mul, Nat.zero_div]
    omega
  rw [dif_neg none] at small notBelow
  cases negative : isNegative v with
  | true =>
      rw [negative] at notBelow
      exact absurd rfl notBelow
  | false =>
      rw [negative] at small
      have ordered : exponent v < -45 ∨ exponent v = -45 ∧ significand v ≤ 170 * 2 ^ 45 := by
        by_contra above
        apply small
        show (some ((compare (-45) (exponent v)).then (compare (170 * 2 ^ 45) (significand v))) ==
          some .lt) = true
        rw [beq_iff_eq, Option.some.injEq, Ordering.then_eq_lt, Int.compare_eq_lt,
          Int.compare_eq_eq, Nat.compare_eq_lt]
        omega
      rw [Int.toNat_eq_zero.2 (by omega), Nat.pow_zero, Nat.mul_one]
      rcases ordered with less | ⟨same, within⟩
      · have shorter : 2 ^ 46 ≤ 2 ^ (-exponent v).toNat :=
          Nat.pow_le_pow_right (by decide) (by omega)
        have quotient := Nat.div_le_div_left (a := significand v) shorter (by decide)
        omega
      · rw [same]
        show significand v / 2 ^ 45 ≤ 170
        omega

end Binary64

end SciCalc
