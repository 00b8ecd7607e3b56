/-
# SciCalc.Proofs.Binary64.Nearest -- the double nearest to a fraction

`Binary64.nearest` is given a fraction as two natural numbers.  Its exponent is
that of the binary logarithm of the fraction (`Binary64.nearestExponent_eq`), so
the double hangs on the fraction alone, however it is written
(`Binary64.nearest_congr`).  The double nearest to the magnitude of a finite
double is that magnitude (`Binary64.nearest_magnitude`).
-/
import Mathlib
import SciCalc.Proofs.Binary64.Bits

namespace SciCalc

set_option autoImplicit false

/-! ## Rounding to a natural number -/

theorem roundHalfEven_one (n : Nat) : roundHalfEven n 1 = n := by
  simp [roundHalfEven, Nat.mod_one]

theorem roundHalfEven_mul (num den : Nat) {c : Nat} (pos : 0 < c) :
    roundHalfEven (num * c) (den * c) = roundHalfEven num den := by
  have below : 2 * (num % den * c) < den * c ↔ 2 * (num % den) < den := by
    rw [← Nat.mul_assoc]
    exact Nat.mul_lt_mul_right pos
  have above : den * c < 2 * (num % den * c) ↔ den < 2 * (num % den) := by
    rw [← Nat.mul_assoc]
    exact Nat.mul_lt_mul_right pos
  unfold roundHalfEven
  simp only [Nat.mul_div_mul_right _ _ pos, Nat.mul_mod_mul_right, below, above]

/-- Rounding hangs on the fraction alone. -/
theorem roundHalfEven_congr {num den num' den' : Nat} (pos : 0 < den) (pos' : 0 < den')
    (same : num * den' = num' * den) : roundHalfEven num den = roundHalfEven num' den' := by
  rw [← roundHalfEven_mul num den pos', ← roundHalfEven_mul num' den' pos, same, Nat.mul_comm den]

/-- What is below a natural number is rounded to that number at most. -/
theorem roundHalfEven_le {num den n : Nat} (below : num < den * n) : roundHalfEven num den ≤ n := by
  have whole : num / den < n := Nat.div_lt_of_lt_mul below
  have parity := Nat.mod_lt (num / den) (by decide : 0 < 2)
  unfold roundHalfEven
  simp only
  split
  · omega
  · split <;> omega

namespace Binary64

/-! ## The exponent -/

/-- A power with its positive and its negative exponent apart. -/
theorem zpow_eq_div (x : ℚ) (k : Int) : x ^ k = x ^ k.toNat / x ^ (-k).toNat := by
  rcases Int.le_total 0 k with high | low
  · obtain ⟨n, rfl⟩ := Int.eq_ofNat_of_zero_le high
    simp
  · obtain ⟨n, rfl⟩ := Int.exists_eq_neg_ofNat low
    simp

/-- Comparing a fraction with a power on natural numbers. -/
theorem scaled_lt_iff {b : Nat} (base : 1 < b) (num : Nat) {den : Nat} (pos : 0 < den) (k : Int) :
    num * b ^ (-k).toNat < den * b ^ k.toNat ↔ (num : ℚ) / den < (b : ℚ) ^ k := by
  have posQ : (0 : ℚ) < den := by exact_mod_cast pos
  have power : (0 : ℚ) < (b : ℚ) ^ (-k).toNat := by positivity
  rw [zpow_eq_div, div_lt_div_iff₀ posQ power, Nat.mul_comm den]
  exact_mod_cast Iff.rfl

/-- A fraction over a power, on natural numbers. -/
theorem scaled_eq {b : Nat} (base : 1 < b) (num : Nat) {den : Nat} (pos : 0 < den) (e : Int) :
    ((num * b ^ (-e).toNat : Nat) : ℚ) / (den * b ^ e.toNat : Nat) * (b : ℚ) ^ e = num / den := by
  have posQ : (0 : ℚ) < den := by exact_mod_cast pos
  have baseQ : (0 : ℚ) < b := by exact_mod_cast Nat.zero_lt_of_lt base
  rw [zpow_eq_div]
  push_cast
  field_simp

theorem log_eq {b : Nat} (base : 1 < b) {r : ℚ} {k : Int} (low : (b : ℚ) ^ k ≤ r)
    (high : r < (b : ℚ) ^ (k + 1)) : Int.log b r = k := by
  have baseQ : (0 : ℚ) < b := by exact_mod_cast Nat.zero_lt_of_lt base
  have pos : 0 < r := lt_of_lt_of_le (zpow_pos baseQ k) low
  have atLeast := (Int.zpow_le_iff_le_log base pos).1 low
  have below := (Int.lt_zpow_iff_log_lt base pos).1 high
  omega

/-- **The logarithm of a fraction** is the difference of those of its parts, or one less. -/
theorem log_div {b : Nat} (base : 1 < b) {num den : Nat} {i j : Int} (numLow : (b : ℚ) ^ i ≤ num)
    (numHigh : (num : ℚ) < (b : ℚ) ^ (i + 1)) (denLow : (b : ℚ) ^ j ≤ den)
    (denHigh : (den : ℚ) < (b : ℚ) ^ (j + 1)) :
    Int.log b ((num : ℚ) / den) =
      if (num : ℚ) / den < (b : ℚ) ^ (i - j) then i - j - 1 else i - j := by
  have baseQ : (0 : ℚ) < b := by exact_mod_cast Nat.zero_lt_of_lt base
  have posQ : (0 : ℚ) < den := lt_of_lt_of_le (zpow_pos baseQ j) denLow
  have high : (num : ℚ) / den < (b : ℚ) ^ (i - j + 1) := by
    rw [div_lt_iff₀ posQ]
    calc (num : ℚ) < (b : ℚ) ^ (i + 1) := numHigh
      _ = (b : ℚ) ^ (i - j + 1) * (b : ℚ) ^ j := by
          rw [← zpow_add₀ baseQ.ne']
          congr 1
          omega
      _ ≤ (b : ℚ) ^ (i - j + 1) * den := mul_le_mul_of_nonneg_left denLow (by positivity)
  have low : (b : ℚ) ^ (i - j - 1) ≤ num / den := by
    rw [le_div_iff₀ posQ]
    calc (b : ℚ) ^ (i - j - 1) * den ≤ (b : ℚ) ^ (i - j - 1) * (b : ℚ) ^ (j + 1) :=
          mul_le_mul_of_nonneg_left denHigh.le (by positivity)
      _ = (b : ℚ) ^ i := by
          rw [← zpow_add₀ baseQ.ne']
          congr 1
          omega
      _ ≤ num := numLow
  split
  · rename_i below
    exact log_eq base low (by rwa [Int.sub_add_cancel])
  · rename_i notBelow
    exact log_eq base (not_lt.1 notBelow) high

/-- The powers of two around a natural number. -/
theorem log2_bounds {n : Nat} (some : n ≠ 0) :
    (2 : ℚ) ^ (n.log2 : Int) ≤ n ∧ (n : ℚ) < 2 ^ ((n.log2 : Int) + 1) := by
  constructor
  · exact_mod_cast Nat.log2_self_le some
  · exact_mod_cast Nat.lt_log2_self (n := n)

theorem nearestExponent_def (num den : Nat) :
    nearestExponent num den =
      let k : Int := (num.log2 : Int) - den.log2
      max ((if num * 2 ^ (-k).toNat < den * 2 ^ k.toNat then k - 1 else k) - 52) (-1074) := rfl

/-- **The exponent of the nearest double** is that of the logarithm, or the least one. -/
theorem nearestExponent_eq {num den : Nat} (some : num ≠ 0) (pos : 0 < den) :
    nearestExponent num den = max (Int.log 2 ((num : ℚ) / den) - 52) (-1074) := by
  have numBounds := log2_bounds some
  have denBounds := log2_bounds pos.ne'
  rw [nearestExponent_def, log_div (b := 2) (i := num.log2) (j := den.log2) (by decide)
    (by exact_mod_cast numBounds.1) (by exact_mod_cast numBounds.2)
    (by exact_mod_cast denBounds.1) (by exact_mod_cast denBounds.2)]
  simp only [scaled_lt_iff (b := 2) (by decide) num pos]

/-! ## The double -/

theorem nearestBits_of_ne_zero {num : Nat} (some : num ≠ 0) (den : Nat) :
    nearestBits num den =
      let e := nearestExponent num den
      min ((e + 1074).toNat * 2 ^ 52 +
        roundHalfEven (num * 2 ^ (-e).toNat) (den * 2 ^ e.toNat)) (0x7ff * 2 ^ 52) := if_neg some

/-- No pattern of a nearest double is above that of the infinity. -/
theorem nearestBits_le (num den : Nat) : nearestBits num den ≤ 0x7ff * 2 ^ 52 := by
  by_cases none : num = 0
  · rw [nearestBits, if_pos none]
    omega
  · rw [nearestBits_of_ne_zero none]
    exact Nat.min_le_right _ _

theorem toNat_toBits_nearest (num den : Nat) :
    (nearest num den).toBits.toNat = nearestBits num den :=
  toNat_toBits_ofBits (nearestBits_le num den)

/-- The sign bit of a nearest double is clear. -/
theorem isNegative_nearest (num den : Nat) : isNegative (nearest num den) = false := by
  have bound := nearestBits_le num den
  rw [isNegative_def, toNat_toBits_nearest]
  exact decide_eq_false (by omega)

/-- **A small fraction has a small nearest double**: below `2 ^ k` the exponent is at most that of
`2 ^ k`. -/
theorem nearestBits_le_of_lt {num den k : Nat} (pos : 0 < den) (below : num < den * 2 ^ k) :
    nearestBits num den ≤ (1023 + k) * 2 ^ 52 := by
  by_cases none : num = 0
  · rw [nearestBits, if_pos none]
    omega
  have posQ : (0 : ℚ) < den := by exact_mod_cast pos
  have someQ : (0 : ℚ) < num := by exact_mod_cast Nat.pos_of_ne_zero none
  have small : (num : ℚ) / den < 2 ^ k := by
    rw [div_lt_iff₀ posQ, mul_comm]
    exact_mod_cast below
  have log : Int.log 2 ((num : ℚ) / den) < k :=
    (Int.lt_zpow_iff_log_lt (b := 2) (by decide) (by positivity)).1 (by exact_mod_cast small)
  have exponent := nearestExponent_eq none pos
  -- the significand at that exponent has at most fifty-three bits
  have rounded : roundHalfEven (num * 2 ^ (-nearestExponent num den).toNat)
      (den * 2 ^ (nearestExponent num den).toNat) ≤ 2 ^ 53 := by
    apply roundHalfEven_le
    generalize nearestExponent num den = e at exponent
    have size : (num : ℚ) / den < 2 ^ (e + 53) := by
      have bound := (Int.lt_zpow_iff_log_lt (b := 2) (by decide) (r := (num : ℚ) / den)
        (x := e + 53) (by positivity)).2 (by omega)
      exact_mod_cast bound
    rw [zpow_add₀ (by decide), zpow_eq_div, div_mul_eq_mul_div,
      div_lt_div_iff₀ posQ (by positivity)] at size
    have whole : num * 2 ^ (-e).toNat < 2 ^ e.toNat * 2 ^ 53 * den := by exact_mod_cast size
    calc num * 2 ^ (-e).toNat < 2 ^ e.toNat * 2 ^ 53 * den := whole
      _ = den * 2 ^ e.toNat * 2 ^ 53 := by ring
  rw [nearestBits_of_ne_zero none]
  simp only
  omega

/-- The pattern of the nearest double hangs on the fraction alone. -/
theorem nearestBits_congr {num den num' den' : Nat} (pos : 0 < den) (pos' : 0 < den')
    (same : num * den' = num' * den) : nearestBits num den = nearestBits num' den' := by
  by_cases none : num = 0
  · have none' : num' = 0 := by
      rw [none, Nat.zero_mul] at same
      exact (Nat.mul_eq_zero.1 same.symm).resolve_right (by omega)
    simp only [nearestBits, none, none', if_true]
  · have some' : num' ≠ 0 := by
      intro none'
      rw [none', Nat.zero_mul] at same
      exact none ((Nat.mul_eq_zero.1 same).resolve_right (by omega))
    have fraction : (num : ℚ) / den = num' / den' := by
      rw [div_eq_div_iff (by positivity) (by positivity)]
      exact_mod_cast same
    have exponent : nearestExponent num den = nearestExponent num' den' := by
      rw [nearestExponent_eq none pos, nearestExponent_eq some' pos', fraction]
    rw [nearestBits_of_ne_zero none, nearestBits_of_ne_zero some', exponent]
    generalize nearestExponent num' den' = e
    have rounded : roundHalfEven (num * 2 ^ (-e).toNat) (den * 2 ^ e.toNat) =
        roundHalfEven (num' * 2 ^ (-e).toNat) (den' * 2 ^ e.toNat) := by
      apply roundHalfEven_congr (by positivity) (by positivity)
      calc num * 2 ^ (-e).toNat * (den' * 2 ^ e.toNat)
          = num * den' * (2 ^ (-e).toNat * 2 ^ e.toNat) := by ring
        _ = num' * den * (2 ^ (-e).toNat * 2 ^ e.toNat) := by rw [same]
        _ = num' * 2 ^ (-e).toNat * (den * 2 ^ e.toNat) := by ring
    simp only [rounded]

/-- **The nearest double hangs on the fraction alone.** -/
theorem nearest_congr {num den num' den' : Nat} (pos : 0 < den) (pos' : 0 < den')
    (same : (num : ℚ) / den = num' / den') : nearest num den = nearest num' den' := by
  rw [div_eq_div_iff (by positivity) (by positivity)] at same
  rw [nearest, nearest, nearestBits_congr pos pos' (by exact_mod_cast same)]

/-! ## The magnitude of a double -/

/-- The magnitude of a finite double, as a fraction. -/
def magnitude (v : Float) : ℚ := (numerator v : ℚ) / denominator v

theorem numerator_def (v : Float) : numerator v = significand v * 2 ^ (exponent v).toNat := rfl

theorem denominator_def (v : Float) : denominator v = 2 ^ (-exponent v).toNat := rfl

theorem magnitude_eq (v : Float) : magnitude v = significand v * 2 ^ exponent v := by
  rw [magnitude, numerator_def, denominator_def, zpow_eq_div]
  push_cast
  ring

/-- What the fields of a double say about its significand and its exponent: a normal double has its
leading bit, a subnormal one the least exponent. -/
theorem significand_spec (v : Float) :
    exponentField v = 0 ∧ significand v = fractionField v ∧ exponent v = -1074 ∨
      exponentField v ≠ 0 ∧ significand v = 2 ^ 52 + fractionField v ∧
        exponent v = exponentField v - 1075 := by
  unfold significand exponent
  by_cases subnormal : exponentField v = 0
  · exact .inl ⟨subnormal, if_pos subnormal, if_pos subnormal⟩
  · exact .inr ⟨subnormal, if_neg subnormal, if_neg subnormal⟩

/-- The logarithm of a significand with its exponent. -/
theorem log_mul_zpow {m : Nat} (some : m ≠ 0) (e : Int) :
    Int.log 2 ((m : ℚ) * 2 ^ e) = m.log2 + e := by
  obtain ⟨low, high⟩ := log2_bounds some
  apply log_eq (by decide) <;> rw [Nat.cast_ofNat]
  · rw [zpow_add₀ (by decide)]
    exact mul_le_mul_of_nonneg_right low (by positivity)
  · rw [add_right_comm, zpow_add₀ (by decide)]
    exact mul_lt_mul_of_pos_right high (by positivity)

theorem log_magnitude {v : Float} (some : significand v ≠ 0) :
    Int.log 2 (magnitude v) = (significand v).log2 + exponent v := by
  rw [magnitude_eq, log_mul_zpow some]

/-- At the exponent of a double its magnitude has the significand of the double. -/
theorem nearestExponent_magnitude {v : Float} (some : significand v ≠ 0) :
    nearestExponent (numerator v) (denominator v) = exponent v := by
  have numeratorSome : numerator v ≠ 0 := Nat.mul_ne_zero some (Nat.two_pow_pos _).ne'
  have small := fractionField_lt v
  rw [nearestExponent_eq numeratorSome (denominator_pos v), ← magnitude, log_magnitude some]
  rcases significand_spec v with ⟨-, isFraction, least⟩ | ⟨normal, leading, stored⟩
  · have short : (significand v).log2 < 52 := (Nat.log2_lt some).2 (by omega)
    omega
  · have atLeast := (Nat.le_log2 some (k := 52)).2 (by omega)
    have atMost := (Nat.log2_lt some (k := 53)).2 (by omega)
    omega

/-- **A double is the nearest one to its own magnitude**, but for the sign. -/
theorem nearestBits_magnitude {v : Float} (finite : v.isFinite = true) :
    nearestBits (numerator v) (denominator v) = exponentField v * 2 ^ 52 + fractionField v := by
  have top := (isFinite_iff v).1 finite
  have high := exponentField_lt v
  have low := fractionField_lt v
  have fields := significand_spec v
  by_cases none : significand v = 0
  · have zero : numerator v = 0 := by rw [numerator_def, none, Nat.zero_mul]
    rw [nearestBits, if_pos zero]
    omega
  · have numeratorSome : numerator v ≠ 0 := Nat.mul_ne_zero none (Nat.two_pow_pos _).ne'
    have rounded : roundHalfEven (numerator v * 2 ^ (-exponent v).toNat)
        (denominator v * 2 ^ (exponent v).toNat) = significand v := by
      have scale : 0 < 2 ^ (exponent v).toNat * 2 ^ (-exponent v).toNat := by positivity
      have whole := roundHalfEven_mul (significand v) 1 scale
      rw [Nat.one_mul, roundHalfEven_one] at whole
      rw [numerator_def, denominator_def, Nat.mul_assoc, Nat.mul_comm (2 ^ (-exponent v).toNat)]
      exact whole
    rw [nearestBits_of_ne_zero numeratorSome, nearestExponent_magnitude none]
    simp only [rounded]
    omega

/-- **The double nearest to the magnitude of a finite double** is that magnitude. -/
theorem nearest_magnitude {v : Float} (finite : v.isFinite = true) :
    nearest (numerator v) (denominator v) = v.abs := by
  apply Float.toBits_inj.1
  apply UInt64.toNat_inj.1
  rw [toNat_toBits_abs (isNaN_of_isFinite finite), toNat_toBits_nearest,
    nearestBits_magnitude finite]

end Binary64

end SciCalc
