/-
# SciCalc.Proofs.Decimal.Rounding -- decimals near a fraction, and their shortest form

A fraction rounded to so many places or digits is the nearest multiple of a power
of ten (`Decimal.roundsTo_toPlaces`, `Decimal.roundsTo_toDigits`): the first digit
of a fraction stands at its decimal logarithm (`Decimal.leadingExponent_eq`), and a
coefficient that rounds up to a power of ten only changes how the decimal is kept.

A trimmed decimal has no zero at the end of its coefficient, and there is one for
each value (`Decimal.IsTrimmed.eq_of_value`); so what is written with its digits
hangs on the value alone.
-/
import Mathlib
import SciCalc.Proofs.Decimal.Numerals
import SciCalc.Proofs.HalfEven

namespace SciCalc

set_option autoImplicit false

namespace Decimal

variable {d d' : Decimal} {num den : Nat}

/-! ## The first digit -/

theorem length_ofNat_pos (n : Nat) : 0 < (Text.ofNat n).length :=
  List.length_pos_of_ne_nil Nat.toDigits_ne_nil

/-- The powers of ten around a natural number tell how many digits it has. -/
theorem ofNat_bounds {n : Nat} (some : n ≠ 0) :
    (10 : ℚ) ^ (((Text.ofNat n).length : Int) - 1) ≤ n ∧
      (n : ℚ) < 10 ^ (((Text.ofNat n).length : Int) - 1 + 1) := by
  have pos := length_ofNat_pos n
  have digits {k : Nat} (positive : 0 < k) : (Text.ofNat n).length ≤ k ↔ n < 10 ^ k :=
    Nat.length_toDigits_le_iff (by decide) positive
  generalize (Text.ofNat n).length = length at *
  obtain ⟨k, rfl⟩ := Nat.exists_eq_succ_of_ne_zero pos.ne'
  rw [Nat.cast_succ, Int.add_sub_cancel]
  constructor
  · rcases Nat.eq_zero_or_pos k with rfl | positive
    · exact_mod_cast Nat.one_le_iff_ne_zero.2 some
    · exact_mod_cast not_lt.1 (mt (digits positive).2 (Nat.not_succ_le_self k))
  · exact_mod_cast (digits pos).1 le_rfl

theorem leadingExponent_def (num den : Nat) :
    leadingExponent num den =
      let k : Int := ((Text.ofNat num).length : Int) - (Text.ofNat den).length
      if num * 10 ^ (-k).toNat < den * 10 ^ k.toNat then k - 1 else k := rfl

/-- **The first digit of a fraction** stands at its decimal logarithm. -/
theorem leadingExponent_eq (some : num ≠ 0) (pos : 0 < den) :
    leadingExponent num den = Int.log 10 ((num : ℚ) / den) := by
  have numBounds := ofNat_bounds some
  have denBounds := ofNat_bounds pos.ne'
  rw [leadingExponent_def, Binary64.log_div (b := 10) (i := (Text.ofNat num).length - 1)
    (j := (Text.ofNat den).length - 1) (by decide) (by exact_mod_cast numBounds.1)
    (by exact_mod_cast numBounds.2) (by exact_mod_cast denBounds.1)
    (by exact_mod_cast denBounds.2)]
  simp only [Binary64.scaled_lt_iff (b := 10) (by decide) num pos, sub_sub_sub_cancel_right]

/-! ## Rounding -/

/-- **A fraction rounded to places** is the nearest decimal with so many. -/
theorem roundsTo_toPlaces (num : Nat) (pos : 0 < den) (n : Nat) :
    RoundsTo (10 ^ (-(n : Int))) ((num : ℚ) / den) (toPlaces num den n).value := by
  have places : (0 : ℚ) < 10 ^ (-(n : Int)) := by positivity
  have rounds := (roundsTo_roundHalfEven (num * 10 ^ n) pos).scale places
  have same : ((num * 10 ^ n : Nat) : ℚ) / den * 10 ^ (-(n : Int)) = num / den := by
    rw [zpow_neg, zpow_natCast]
    push_cast
    field_simp
  rwa [same] at rounds

theorem value_toDigits (num den n : Nat) :
    (toDigits num den n).value =
      (roundHalfEven (num * 10 ^ (-(leadingExponent num den - n)).toNat)
          (den * 10 ^ (leadingExponent num den - n).toNat) : Nat) *
        10 ^ (leadingExponent num den - n) := by
  unfold toDigits
  simp only
  generalize leadingExponent num den - n = e
  split
  · rename_i carry
    change _ = 10 ^ (n + 1) at carry
    have power : ((10 ^ n : Nat) : ℚ) * 10 ^ (e + 1) = (10 ^ (n + 1) : Nat) * 10 ^ e := by
      rw [zpow_add_one₀ (by norm_num)]
      push_cast
      ring
    exact power.trans (by rw [← carry]; rfl)
  · rfl

/-- **A fraction rounded to significant digits** is the nearest decimal with so many. -/
theorem roundsTo_toDigits (some : num ≠ 0) (pos : 0 < den) (n : Nat) :
    RoundsTo (10 ^ (Int.log 10 ((num : ℚ) / den) - n)) ((num : ℚ) / den)
      (toDigits num den n).value := by
  rw [value_toDigits, ← leadingExponent_eq some pos]
  generalize leadingExponent num den - n = e
  have scaled := Binary64.scaled_eq (b := 10) (by decide) num pos e
  rw [Nat.cast_ofNat] at scaled
  rw [← scaled]
  exact (roundsTo_roundHalfEven _ (by positivity)).scale (by positivity)

/-! ## Trimmed decimals -/

/-- A coefficient that does not end in a zero, or the number zero. -/
def IsTrimmed (d : Decimal) : Prop := d.coefficient % 10 ≠ 0 ∨ d = ⟨0, 0⟩

/-- Enough divisions leave a coefficient that does not end in a zero. -/
theorem isTrimmed_dropZeros {fuel c : Nat} (some : c ≠ 0) (enough : c < 2 ^ (fuel + 1)) (e : Int) :
    (dropZeros fuel c e).IsTrimmed := by
  induction fuel generalizing c e with
  | zero =>
      left
      show c % 10 ≠ 0
      omega
  | succ fuel ih =>
      rw [dropZeros]
      split
      · rename_i divides
        rw [Nat.pow_succ] at enough
        exact ih (by omega) (by omega) (e + 1)
      · rename_i last
        exact .inl last

theorem isTrimmed_trimmed (d : Decimal) : d.trimmed.IsTrimmed := by
  unfold trimmed
  split
  · exact .inr rfl
  · rename_i some
    exact isTrimmed_dropZeros some Nat.lt_log2_self d.exponent

/-- **What a zero taken from the coefficient does not change** is not changed by trimming. -/
theorem eq_of_trimmed {α : Type} (f : Decimal → α) (some : d.coefficient ≠ 0)
    (step : ∀ k e, k ≠ 0 → f ⟨k * 10, e⟩ = f ⟨k, e + 1⟩) : f d.trimmed = f d := by
  have dropped (fuel c : Nat) (e : Int) (some : c ≠ 0) : f (dropZeros fuel c e) = f ⟨c, e⟩ := by
    induction fuel generalizing c e with
    | zero => rfl
    | succ fuel ih =>
        rw [dropZeros]
        split
        · rename_i divides
          obtain ⟨k, rfl⟩ := Nat.dvd_of_mod_eq_zero divides
          rw [Nat.mul_comm] at some ⊢
          rw [Nat.mul_div_cancel k (by decide)]
          have left : k ≠ 0 := Nat.ne_zero_of_mul_ne_zero_left some
          rw [ih k (e + 1) left, step k e left]
        · rfl
  rw [trimmed, if_neg some]
  exact dropped _ _ _ some

theorem value_eq_zero_iff : d.value = 0 ↔ d.coefficient = 0 := by
  have power : (10 : ℚ) ^ d.exponent ≠ 0 := by positivity
  rw [value, mul_eq_zero, or_iff_left power, Nat.cast_eq_zero]

theorem coefficient_trimmed_eq_zero_iff : d.trimmed.coefficient = 0 ↔ d.coefficient = 0 := by
  rw [← value_eq_zero_iff, value_trimmed, value_eq_zero_iff]

theorem value_nonneg (d : Decimal) : 0 ≤ d.value := by
  rw [value]
  positivity

/-- A trimmed decimal is zero in one way only. -/
theorem IsTrimmed.eq_zero (trim : d.IsTrimmed) (zero : d.value = 0) : d = ⟨0, 0⟩ := by
  rcases trim with last | none
  · rw [value_eq_zero_iff.1 zero] at last
    exact absurd rfl last
  · exact none

/-- Of two decimals of one value the one with the lesser exponent ends in a zero. -/
theorem mod_ten_of_exponent_lt (same : d.value = d'.value) (lower : d.exponent < d'.exponent) :
    d.coefficient % 10 = 0 := by
  obtain ⟨c, e⟩ := d
  obtain ⟨c', e'⟩ := d'
  obtain ⟨k, rfl⟩ := Int.le.dest lower
  have power : (10 : ℚ) ^ e ≠ 0 := by positivity
  have shifted : (c : ℚ) = c' * 10 ^ k * 10 := by
    apply mul_right_cancel₀ power
    rw [value, value] at same
    simp only at same
    rw [same, zpow_add₀ (by norm_num), zpow_add_one₀ (by norm_num), zpow_natCast]
    ring
  have whole : c = c' * 10 ^ k * 10 := by exact_mod_cast shifted
  show c % 10 = 0
  rw [whole, Nat.mul_mod_left]

/-- **There is one trimmed decimal for each value.** -/
theorem IsTrimmed.eq_of_value (trim : d.IsTrimmed) (trim' : d'.IsTrimmed)
    (same : d.value = d'.value) : d = d' := by
  by_cases zero : d.value = 0
  · rw [trim.eq_zero zero, trim'.eq_zero (same.symm.trans zero)]
  have last : d.coefficient % 10 ≠ 0 := trim.resolve_right fun none => zero (by simp [none, value])
  have last' : d'.coefficient % 10 ≠ 0 :=
    trim'.resolve_right fun none => zero (by rw [same, none, value]; simp)
  have exponent : d.exponent = d'.exponent := by
    rcases lt_trichotomy d.exponent d'.exponent with lower | equal | higher
    · exact absurd (mod_ten_of_exponent_lt same lower) last
    · exact equal
    · exact absurd (mod_ten_of_exponent_lt same.symm higher) last'
  obtain ⟨c, e⟩ := d
  obtain ⟨c', e'⟩ := d'
  obtain rfl : e = e' := exponent
  have power : (10 : ℚ) ^ e ≠ 0 := by positivity
  have coefficient : (c : ℚ) = c' := mul_right_cancel₀ power same
  rw [show c = c' by exact_mod_cast coefficient]

/-! ## The last character -/

/-- Digits that end in a zero denote a multiple of ten. -/
theorem natOfDigits_of_last_zero {t : Text} (last : t.getLast? = some '0') :
    natOfDigits t % 10 = 0 := by
  obtain ⟨front, rfl⟩ := List.getLast?_eq_some_iff.1 last
  rw [show ['0'] = List.replicate 1 '0' from rfl, natOfDigits_append_zeros, Nat.pow_one,
    Nat.mul_mod_left]

end Decimal

end SciCalc
