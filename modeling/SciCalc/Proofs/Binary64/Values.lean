/-
# SciCalc.Proofs.Binary64.Values -- finite doubles as rational numbers

`Binary64.toRat` is the exact value of a finite double, its magnitude with its
sign.  The significand of a double has its leading bit unless the exponent is the
least one, so magnitudes are ordered by exponents first and significands then
(`Binary64.compare_parts`); hence the comparisons of doubles are those of their
values (`Binary64.lt_iff_toRat`, `Binary64.le_iff_toRat`, `Binary64.beq_iff_toRat`).
-/
import Mathlib
import SciCalc.Proofs.Binary64.Finite

namespace SciCalc

set_option autoImplicit false

namespace Binary64

open Float.Model Float.Model.UnpackedFloat

variable {v a b : Float}

/-- The exact value of a finite double. -/
def toRat (v : Float) : ℚ := if isNegative v then -magnitude v else magnitude v

theorem magnitude_nonneg (v : Float) : 0 ≤ magnitude v := by
  rw [magnitude]
  positivity

theorem abs_toRat (v : Float) : |toRat v| = magnitude v := by
  unfold toRat
  split
  · rw [abs_neg, abs_of_nonneg (magnitude_nonneg v)]
  · rw [abs_of_nonneg (magnitude_nonneg v)]

theorem magnitude_eq_zero_iff : magnitude v = 0 ↔ significand v = 0 := by
  have power : (2 : ℚ) ^ exponent v ≠ 0 := by positivity
  rw [magnitude_eq, mul_eq_zero, or_iff_left power]
  exact_mod_cast Iff.rfl

theorem magnitude_pos (some : significand v ≠ 0) : 0 < magnitude v :=
  lt_of_le_of_ne (magnitude_nonneg v) fun none => some (magnitude_eq_zero_iff.1 none.symm)

/-- Doubles of the same exponent and fraction have the same magnitude. -/
theorem magnitude_congr (high : exponentField a = exponentField b)
    (low : fractionField a = fractionField b) : magnitude a = magnitude b := by
  simp only [magnitude_eq, significand, exponent, high, low]

theorem toRat_neg (number : v.isNaN = false) : toRat (-v) = -toRat v := by
  obtain ⟨sign, high, low⟩ := fields_neg number
  rw [toRat, toRat, sign, magnitude_congr high low]
  cases isNegative v <;> simp

theorem toRat_abs (number : v.isNaN = false) : toRat v.abs = magnitude v := by
  obtain ⟨sign, high, low⟩ := fields_abs number
  rw [toRat, sign, magnitude_congr high low]
  rfl

/-- A magnitude that is a natural number. -/
theorem toRat_of_parts {n : Nat} (positive : isNegative v = false)
    (whole : numerator v = n * denominator v) : toRat v = n := by
  have pos : (0 : ℚ) < denominator v := by exact_mod_cast denominator_pos v
  rw [toRat, positive, if_neg Bool.false_ne_true, magnitude, whole, Nat.cast_mul,
    mul_div_cancel_right₀ _ pos.ne']

theorem toRat_zero : toRat 0 = 0 := by
  have parts : isNegative 0 = false ∧ numerator 0 = 0 * denominator 0 := by decide +kernel
  exact_mod_cast toRat_of_parts parts.1 parts.2

/-! ## The order -/

/-- A significand of at most fifty-three bits, with its leading bit unless the exponent is the
least one. -/
structure Canonical (m : Nat) (e : Int) : Prop where
  short : m < 2 ^ 53
  least : -1074 ≤ e
  leading : e = -1074 ∨ 2 ^ 52 ≤ m

theorem canonical (v : Float) : Canonical (significand v) (exponent v) := by
  have bound := fractionField_lt v
  rcases significand_spec v with ⟨-, stored, least⟩ | ⟨normal, stored, raised⟩
  · exact ⟨by omega, by omega, .inl least⟩
  · exact ⟨by omega, by omega, .inr (by omega)⟩

namespace Canonical

variable {m m' : Nat} {e e' : Int}

/-- **A number of a lower exponent is smaller**, by a unit of the higher one at least. -/
theorem lt_of_exponent_lt (first : Canonical m e) (second : Canonical m' e') (lower : e < e') :
    (m : ℚ) * 2 ^ e < m' * 2 ^ e' := by
  have leading : 2 ^ 52 ≤ m' := second.leading.resolve_left (by have := first.least; omega)
  have shortQ : (m : ℚ) < 2 ^ 53 := by exact_mod_cast first.short
  have leadingQ : (2 ^ 52 : ℚ) ≤ m' := by exact_mod_cast leading
  calc (m : ℚ) * 2 ^ e < 2 ^ 53 * 2 ^ e := mul_lt_mul_of_pos_right shortQ (by positivity)
    _ = 2 ^ 52 * 2 ^ (e + 1) := by rw [zpow_add_one₀ (by norm_num)]; ring
    _ ≤ 2 ^ 52 * 2 ^ e' :=
        mul_le_mul_of_nonneg_left (zpow_le_zpow_right₀ (by norm_num) (by omega)) (by positivity)
    _ ≤ m' * 2 ^ e' := mul_le_mul_of_nonneg_right leadingQ (by positivity)

/-- **Between two neighbours there is no other magnitude.** -/
theorem le_of_lt_next (first : Canonical m e) (next : Canonical (m' + 1) e') (leading : 2 ^ 52 ≤ m')
    (less : (m : ℚ) * 2 ^ e < (m' + 1 : Nat) * 2 ^ e') : (m : ℚ) * 2 ^ e ≤ m' * 2 ^ e' := by
  have short := next.short
  rcases lt_trichotomy e e' with lower | rfl | higher
  · exact (first.lt_of_exponent_lt ⟨by omega, next.least, .inr leading⟩ lower).le
  · have power : (0 : ℚ) < 2 ^ e := by positivity
    have below : (m : ℚ) < (m' + 1 : Nat) := lt_of_mul_lt_mul_right less power.le
    have atMost : (m : ℚ) ≤ m' := by exact_mod_cast Nat.lt_succ_iff.1 (by exact_mod_cast below)
    exact mul_le_mul_of_nonneg_right atMost power.le
  · exact absurd (next.lt_of_exponent_lt first higher) less.not_gt

end Canonical

/-- The exponent of a large double. -/
theorem lt_exponent {k : Int} (large : 2 ^ 53 * 2 ^ k ≤ |toRat v|) : k < exponent v := by
  by_contra low
  have short : (significand v : ℚ) < 2 ^ 53 := by exact_mod_cast (canonical v).short
  have power : (2 : ℚ) ^ exponent v ≤ 2 ^ k := zpow_le_zpow_right₀ (by norm_num) (not_lt.1 low)
  have small : magnitude v < 2 ^ 53 * 2 ^ k := by
    calc magnitude v = significand v * 2 ^ exponent v := magnitude_eq v
      _ < 2 ^ 53 * 2 ^ exponent v := mul_lt_mul_of_pos_right short (by positivity)
      _ ≤ 2 ^ 53 * 2 ^ k := mul_le_mul_of_nonneg_left power (by positivity)
  rw [abs_toRat] at large
  exact absurd large (not_le.2 small)

/-- **Magnitudes are ordered by exponents first and significands then.** -/
theorem compare_parts {m m' : Nat} {e e' : Int} (first : Canonical m e)
    (second : Canonical m' e') :
    (compare e e').then (compare m m') = compare ((m : ℚ) * 2 ^ e) (m' * 2 ^ e') := by
  rcases lt_trichotomy e e' with lower | rfl | higher
  · rw [compare_lt_iff_lt.2 lower, compare_lt_iff_lt.2 (first.lt_of_exponent_lt second lower)]
    rfl
  · have power : (0 : ℚ) < 2 ^ e := by positivity
    rw [compare_eq_iff_eq.2 rfl]
    show compare m m' = _
    rcases lt_trichotomy m m' with less | rfl | more
    · have lessQ : (m : ℚ) < m' := by exact_mod_cast less
      rw [compare_lt_iff_lt.2 less, compare_lt_iff_lt.2 (mul_lt_mul_of_pos_right lessQ power)]
    · rw [compare_eq_iff_eq.2 rfl, compare_eq_iff_eq.2 rfl]
    · have moreQ : (m' : ℚ) < m := by exact_mod_cast more
      rw [compare_gt_iff_gt.2 more, compare_gt_iff_gt.2 (mul_lt_mul_of_pos_right moreQ power)]
  · rw [compare_gt_iff_gt.2 higher, compare_gt_iff_gt.2 (second.lt_of_exponent_lt first higher)]
    rfl

theorem compare_neg_neg (x y : ℚ) : compare (-x) (-y) = (compare x y).swap := by
  rcases lt_trichotomy x y with less | rfl | more
  · rw [compare_lt_iff_lt.2 less, compare_gt_iff_gt.2 (neg_lt_neg less)]
    rfl
  · rw [compare_eq_iff_eq.2 rfl, compare_eq_iff_eq.2 rfl]
    rfl
  · rw [compare_gt_iff_gt.2 more, compare_lt_iff_lt.2 (neg_lt_neg more)]
    rfl

/-- **Finite doubles are compared as their values.** -/
theorem compare_unpacked (finite : a.isFinite = true) (finite' : b.isFinite = true) :
    (unpacked a).compare (unpacked b) = some (compare (toRat a) (toRat b)) := by
  have order := compare_parts (canonical a) (canonical b)
  rw [← magnitude_eq, ← magnitude_eq] at order
  rw [unpacked_eq finite, unpacked_eq finite', ofParts, ofParts, toRat, toRat]
  by_cases none : significand a = 0
  · rw [dif_pos none, magnitude_eq_zero_iff.2 none]
    by_cases none' : significand b = 0
    · rw [dif_pos none', magnitude_eq_zero_iff.2 none']
      cases isNegative a <;> cases isNegative b <;> simp <;> rfl
    · have pos := magnitude_pos none'
      rw [dif_neg none', neg_zero, ite_self]
      cases isNegative b with
      | false => rw [compare_lt_iff_lt.2 (by simpa using pos)]; rfl
      | true => rw [compare_gt_iff_gt.2 (by simpa using pos)]; rfl
  · have pos := magnitude_pos none
    rw [dif_neg none]
    by_cases none' : significand b = 0
    · rw [dif_pos none', magnitude_eq_zero_iff.2 none', neg_zero, ite_self]
      cases isNegative a with
      | false => rw [compare_gt_iff_gt.2 (by simpa using pos)]; rfl
      | true => rw [compare_lt_iff_lt.2 (by simpa using pos)]; rfl
    · have pos' := magnitude_pos none'
      rw [dif_neg none']
      cases isNegative a <;> cases isNegative b
      · simp only [Bool.false_eq_true, if_false, ← order]
        rfl
      · rw [compare_gt_iff_gt.2 (by simpa using by linarith)]
        rfl
      · rw [compare_lt_iff_lt.2 (by simpa using by linarith)]
        rfl
      · simp only [if_true, compare_neg_neg, ← order]
        rfl

theorem lt_iff_toRat (finite : a.isFinite = true) (finite' : b.isFinite = true) :
    a < b ↔ toRat a < toRat b := by
  rw [lt_iff, UnpackedFloat.lt, compare_unpacked finite finite', beq_iff_eq, Option.some.injEq,
    compare_lt_iff_lt]

theorem le_iff_toRat (finite : a.isFinite = true) (finite' : b.isFinite = true) :
    a ≤ b ↔ toRat a ≤ toRat b := by
  rw [le_iff, UnpackedFloat.le, compare_unpacked finite finite', Option.any_some,
    Ordering.isLE_iff_ne_gt, compare_gt_iff_gt, not_lt]

theorem beq_iff_toRat (finite : a.isFinite = true) (finite' : b.isFinite = true) :
    (a == b) = true ↔ toRat a = toRat b := by
  show (unpacked a).beq (unpacked b) = true ↔ _
  rw [UnpackedFloat.beq, compare_unpacked finite finite', beq_iff_eq, Option.some.injEq,
    compare_eq_iff_eq]

end Binary64

end SciCalc
