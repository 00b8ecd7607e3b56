/-
# SciCalc.Proofs.Binary64.Grid -- the double nearest to a number is a multiple of a power of two

Around a number the doubles are the multiples of a power of two, and the double
nearest to a fraction is the nearest of them (`Binary64.roundsTo_nearest`); so what
is such a multiple already is stored as it is.  The nearest double is finite up to
the middle between the greatest double and the next power of two
(`Binary64.isFinite_nearest_iff`).

`Binary64.ofRat` is the double nearest to a rational number, its sign included; on
finite doubles other than zero it undoes `Binary64.toRat` (`Binary64.ofRat_toRat`).
-/
import Mathlib
import SciCalc.Proofs.Binary64.Values
import SciCalc.Proofs.HalfEven

namespace SciCalc

set_option autoImplicit false

theorem le_roundHalfEven {num den n : Nat} (pos : 0 < den) (atLeast : den * n ≤ num) :
    n ≤ roundHalfEven num den := by
  have whole : n ≤ num / den := (Nat.le_div_iff_mul_le pos).2 (by rwa [Nat.mul_comm])
  unfold roundHalfEven
  simp only
  split
  · exact whole
  · split <;> omega

namespace Binary64

variable {v : Float}

/-! ## The nearest double -/

/-- **A double from its pattern**: with `E` counted from the least exponent, the pattern
`E · 2 ^ 52 + q` stands for `q · 2 ^ (E - 1074)`, also where `q` has one bit too many. -/
theorem magnitude_of_pattern {E q : Nat} (pattern : v.toBits.toNat = E * 2 ^ 52 + q)
    (short : q ≤ 2 ^ 53) (leading : E = 0 ∨ 2 ^ 52 ≤ q) (finite : E * 2 ^ 52 + q < 2047 * 2 ^ 52) :
    magnitude v = q * 2 ^ ((E : Int) - 1074) := by
  have high := exponentField_def v
  have low := fractionField_def v
  rw [pattern] at high low
  rw [magnitude_eq]
  rcases significand_spec v with ⟨subnormal, stored, least⟩ | ⟨normal, stored, raised⟩
  · have first : E = 0 := by omega
    have same : significand v = q := by omega
    rw [same, least, first]
    rfl
  · rcases Nat.lt_or_eq_of_le short with less | carry
    · have same : significand v = q ∧ exponent v = (E : Int) - 1074 := by omega
      rw [same.1, same.2]
    · have same : significand v = 2 ^ 52 ∧ exponent v = (E : Int) - 1074 + 1 := by omega
      rw [same.1, same.2, carry, zpow_add_one₀ (by norm_num)]
      push_cast
      ring

section Nearest

variable {num den : Nat}

/-- The significand that a fraction is rounded to. -/
def nearestSignificand (num den : Nat) : Nat :=
  roundHalfEven (num * 2 ^ (-nearestExponent num den).toNat)
    (den * 2 ^ (nearestExponent num den).toNat)

theorem nearestBits_eq (some : num ≠ 0) (den : Nat) :
    nearestBits num den =
      min ((nearestExponent num den + 1074).toNat * 2 ^ 52 + nearestSignificand num den)
        (0x7ff * 2 ^ 52) := nearestBits_of_ne_zero some den

/-- A fraction has at most fifty-three bits before its point at the exponent of its nearest double,
and fewer only if that is the least exponent. -/
theorem nearestExponent_spec (some : num ≠ 0) (pos : 0 < den) :
    -1074 ≤ nearestExponent num den ∧
      (num : ℚ) / den < 2 ^ 53 * 2 ^ nearestExponent num den ∧
      (nearestExponent num den = -1074 ∨
        2 ^ 52 * 2 ^ nearestExponent num den ≤ (num : ℚ) / den) := by
  have someQ : (0 : ℚ) < num := by exact_mod_cast Nat.pos_of_ne_zero some
  have posQ : (0 : ℚ) < num / den := by positivity
  have exponent := nearestExponent_eq some pos
  generalize nearestExponent num den = e at exponent
  have power (n : Nat) : (2 : ℚ) ^ n * 2 ^ e = 2 ^ (e + n) := by
    rw [zpow_add₀ (by norm_num), zpow_natCast, mul_comm]
  rw [power, power]
  refine ⟨by omega, ?_, ?_⟩
  · have bound := (Int.lt_zpow_iff_log_lt (b := 2) (by decide) (r := (num : ℚ) / den)
      (x := e + (53 : Nat)) posQ).2 (by omega)
    exact_mod_cast bound
  · rcases Int.lt_or_le (-1074) e with raised | least
    · have bound := (Int.zpow_le_iff_le_log (b := 2) (by decide) (r := (num : ℚ) / den)
        (x := e + (52 : Nat)) posQ).2 (by omega)
      exact .inr (by exact_mod_cast bound)
    · exact .inl (by omega)

/-- **The significand has fifty-three bits**, fewer only at the least exponent. -/
theorem nearestSignificand_spec (some : num ≠ 0) (pos : 0 < den) :
    nearestSignificand num den ≤ 2 ^ 53 ∧
      (nearestExponent num den = -1074 ∨ 2 ^ 52 ≤ nearestSignificand num den) := by
  obtain ⟨-, below, leading⟩ := nearestExponent_spec some pos
  have scaled := scaled_eq one_lt_two num pos (nearestExponent num den)
  rw [Nat.cast_ofNat] at scaled
  unfold nearestSignificand
  generalize nearestExponent num den = e at below leading scaled
  have posDen : 0 < den * 2 ^ e.toNat := Nat.mul_pos pos (Nat.two_pow_pos _)
  have posDenQ : (0 : ℚ) < (den * 2 ^ e.toNat : Nat) := by exact_mod_cast posDen
  have power : (0 : ℚ) < 2 ^ e := by positivity
  rw [← scaled] at below leading
  constructor
  · apply roundHalfEven_le
    have less := lt_of_mul_lt_mul_right below power.le
    rw [div_lt_iff₀ posDenQ] at less
    rw [Nat.mul_comm _ (2 ^ 53)]
    exact_mod_cast less
  · refine leading.imp_right fun atLeast => le_roundHalfEven posDen ?_
    have more := le_of_mul_le_mul_right atLeast power
    rw [le_div_iff₀ posDenQ] at more
    rw [Nat.mul_comm _ (2 ^ 52)]
    exact_mod_cast more

/-- **The nearest double is the nearest multiple of a power of two.** -/
theorem roundsTo_nearest (pos : 0 < den) (finite : (nearest num den).isFinite = true) :
    RoundsTo (2 ^ nearestExponent num den) ((num : ℚ) / den) (magnitude (nearest num den)) := by
  have pattern := toNat_toBits_nearest num den
  have top := (isFinite_iff _).1 finite
  rw [exponentField_def, pattern] at top
  by_cases none : num = 0
  · rw [none, nearestBits, if_pos rfl] at pattern
    have zero := magnitude_of_pattern (E := 0) (q := 0) pattern (by decide) (.inl rfl) (by decide)
    have power : (0 : ℚ) < 2 ^ nearestExponent 0 den := by positivity
    have still := RoundsTo.of_multiple power 0
    simpa [none, zero] using still
  · rw [nearestBits_eq none] at top pattern
    obtain ⟨short, leading⟩ := nearestSignificand_spec none pos
    obtain ⟨least, -⟩ := nearestExponent_spec none pos
    rw [magnitude_of_pattern (pattern.trans (Nat.min_eq_left (by omega))) short (by omega)
        (by omega), Int.toNat_of_nonneg (by omega), Int.add_sub_cancel,
      ← scaled_eq one_lt_two num pos (nearestExponent num den), Nat.cast_ofNat]
    exact (roundsTo_roundHalfEven _ (Nat.mul_pos pos (Nat.two_pow_pos _))).scale (by positivity)

theorem limit_eq : (2 : ℚ) ^ 1024 - 2 ^ 970 = (2 ^ 54 - 1) * 2 ^ (970 : Int) := by
  rw [show 1024 = 54 + 970 from rfl, pow_add, sub_mul, one_mul]
  rfl

/-- **The nearest double is finite** below the middle between the greatest double and the next
power of two. -/
theorem isFinite_nearest_iff (pos : 0 < den) :
    (nearest num den).isFinite = true ↔ (num : ℚ) / den < 2 ^ 1024 - 2 ^ 970 := by
  rw [isFinite_iff, exponentField_def, toNat_toBits_nearest, limit_eq]
  have power : (0 : ℚ) < 2 ^ (970 : Int) := by positivity
  by_cases none : num = 0
  · rw [none, nearestBits, if_pos rfl, Nat.cast_zero, zero_div]
    exact iff_of_true (by decide) (mul_pos (by norm_num) power)
  rw [nearestBits_eq none]
  obtain ⟨short, leading⟩ := nearestSignificand_spec none pos
  obtain ⟨least, below, atLeast⟩ := nearestExponent_spec none pos
  have rounds := roundsTo_roundHalfEven (num * 2 ^ (-nearestExponent num den).toNat)
    (Nat.mul_pos pos (Nat.two_pow_pos (nearestExponent num den).toNat))
  have scaled := scaled_eq one_lt_two num pos (nearestExponent num den)
  rw [Nat.cast_ofNat] at scaled
  change RoundsTo 1 _ (nearestSignificand num den) at rounds
  generalize nearestExponent num den = e at *
  generalize nearestSignificand num den = q at *
  generalize ((num * 2 ^ (-e).toNat : Nat) : ℚ) / (den * 2 ^ e.toNat : Nat) = x at rounds scaled
  rw [← scaled] at below atLeast ⊢
  rcases lt_trichotomy e 971 with low | rfl | high
  · have lower : (2 : ℚ) ^ e ≤ 2 ^ (970 : Int) := zpow_le_zpow_right₀ (by norm_num) (by omega)
    generalize (2 : ℚ) ^ (970 : Int) = top at power lower
    exact iff_of_true (by omega) (by linarith)
  · -- at the greatest exponent everything hangs on the significand
    have edge := rounds.lt_iff_of_even one_pos (n := 2 ^ 53) (by decide)
    have whole : (q : ℚ) < (2 ^ 53 : Int) * 1 ↔ q < 2 ^ 53 := by
      rw [mul_one]
      exact_mod_cast Iff.rfl
    have limit : x * 2 ^ (971 : Int) < (2 ^ 54 - 1) * 2 ^ (970 : Int) ↔ x * 2 < 2 ^ 54 - 1 := by
      rw [show (971 : Int) = 970 + 1 from rfl, zpow_add_one₀ (by norm_num),
        mul_comm ((2 : ℚ) ^ (970 : Int)), ← mul_assoc, mul_lt_mul_iff_left₀ power]
    have half : 2 * x < (2 * (2 ^ 53 : Int) - 1) * 1 ↔ x * 2 < 2 ^ 54 - 1 := by
      rw [mul_comm 2 x]
      norm_num
    rw [limit, ← half, ← edge, whole]
    omega
  · have higher : (2 : ℚ) ^ (970 : Int) * 4 ≤ 2 ^ e := by
      rw [show (4 : ℚ) = 2 ^ (2 : Int) by norm_num, ← zpow_add₀ (by norm_num)]
      exact zpow_le_zpow_right₀ (by norm_num) (by omega)
    have more := atLeast.resolve_left (by omega)
    generalize (2 : ℚ) ^ (970 : Int) = top at power higher
    exact iff_of_false (by omega) (not_lt.2 (by linarith))

end Nearest

/-! ## The nearest double to a rational number -/

/-- The pattern of a nearest double with its sign. -/
theorem toNat_signedNearest (negative : Bool) (num den : Nat) :
    (signedNearest negative num den).toBits.toNat = signPart negative + nearestBits num den := by
  have bound := nearestBits_le num den
  have pattern := toNat_toBits_nearest num den
  have fields := toNat_toBits (nearest num den)
  rw [isNegative_nearest, pattern] at fields
  cases negative with
  | false =>
      show (nearest num den).toBits.toNat = _
      rw [pattern]
      show _ = 0 + _
      omega
  | true =>
      have number : (nearest num den).isNaN = false := by
        rw [Bool.eq_false_iff, Ne, isNaN_iff, exponentField_def, fractionField_def, pattern]
        omega
      show (-nearest num den).toBits.toNat = _
      rw [toNat_toBits_neg number, isNegative_nearest, fields]
      show signPart true + _ + _ = signPart true + (0 + _ + _)
      omega

theorem signedNearest_congr (negative : Bool) {num den num' den' : Nat} (pos : 0 < den)
    (pos' : 0 < den') (same : (num : ℚ) / den = num' / den') :
    signedNearest negative num den = signedNearest negative num' den' := by
  rw [signedNearest, signedNearest, nearest_congr pos pos' same]

/-- The double nearest to a rational number. -/
def ofRat (x : ℚ) : Float := signedNearest (decide (x < 0)) x.num.natAbs x.den

theorem num_div_den_eq_abs (x : ℚ) : (x.num.natAbs : ℚ) / x.den = |x| := by
  have whole : |(x.den : ℚ)| = x.den := abs_of_nonneg (Nat.cast_nonneg _)
  rw [Nat.cast_natAbs, Int.cast_abs, ← whole, ← abs_div, Rat.num_div_den]

/-- A fraction with its sign has the nearest double of its value. -/
theorem signedNearest_eq_ofRat (negative : Bool) {num den : Nat} (some : num ≠ 0) (pos : 0 < den) :
    signedNearest negative num den = ofRat (if negative then -(num / den) else num / den) := by
  have above : (0 : ℚ) < num / den := by
    have someQ : (0 : ℚ) < num := by exact_mod_cast Nat.pos_of_ne_zero some
    positivity
  rw [ofRat]
  cases negative with
  | false =>
      rw [if_neg Bool.false_ne_true, decide_eq_false (not_lt.2 above.le)]
      apply signedNearest_congr _ pos (Rat.den_pos _)
      rw [num_div_den_eq_abs, abs_of_pos above]
  | true =>
      rw [if_pos rfl, decide_eq_true (neg_neg_of_pos above)]
      apply signedNearest_congr _ pos (Rat.den_pos _)
      rw [num_div_den_eq_abs, abs_neg, abs_of_pos above]

theorem isFinite_signedNearest_iff (negative : Bool) (num den : Nat) :
    (signedNearest negative num den).isFinite = true ↔ (nearest num den).isFinite = true := by
  have pattern := toNat_signedNearest negative num den
  have pattern' := toNat_toBits_nearest num den
  have sign : signPart negative = 0 ∨ signPart negative = 2 ^ 63 := by
    cases negative
    · exact .inl rfl
    · exact .inr rfl
  rw [isFinite_iff, isFinite_iff, exponentField_def, exponentField_def, pattern, pattern']
  omega

/-- **The nearest double is finite** below the middle between the greatest double and the next
power of two. -/
theorem isFinite_ofRat_iff (x : ℚ) : (ofRat x).isFinite = true ↔ |x| < 2 ^ 1024 - 2 ^ 970 := by
  rw [ofRat, isFinite_signedNearest_iff, isFinite_nearest_iff x.den_pos, num_div_den_eq_abs]

/-- A finite double but zero is the nearest one to its value. -/
theorem ofRat_toRat (finite : v.isFinite = true) (some : significand v ≠ 0) :
    ofRat (toRat v) = v := by
  have some' : numerator v ≠ 0 := Nat.mul_ne_zero some (Nat.two_pow_pos _).ne'
  rw [toRat, magnitude, ← signedNearest_eq_ofRat _ some' (denominator_pos v), signedNearest,
    nearest_magnitude finite]
  exact (eq_of_abs finite).symm

theorem toRat_signedNearest (negative : Bool) {num den : Nat}
    (finite : (nearest num den).isFinite = true) :
    toRat (signedNearest negative num den) =
      if negative then -magnitude (nearest num den) else magnitude (nearest num den) := by
  have positive : toRat (nearest num den) = magnitude (nearest num den) := by
    rw [toRat, isNegative_nearest, if_neg Bool.false_ne_true]
  cases negative with
  | false => exact positive
  | true =>
      rw [if_pos rfl, ← positive]
      exact toRat_neg (isNaN_of_isFinite finite)

/-- **The value of the nearest double** is the nearest multiple of its unit. -/
theorem roundsTo_ofRat (x : ℚ) (finite : (ofRat x).isFinite = true) :
    RoundsTo (2 ^ max (Int.log 2 |x| - 52) (-1074)) x (toRat (ofRat x)) := by
  rw [ofRat, isFinite_signedNearest_iff] at finite
  have rounds := roundsTo_nearest x.den_pos finite
  rw [ofRat, toRat_signedNearest _ finite]
  rw [num_div_den_eq_abs] at rounds
  by_cases zero : x = 0
  · subst zero
    rw [abs_zero] at rounds
    have still := rounds.eq_of_multiple (n := 0) (zpow_pos (by norm_num) _) (by simp)
    rw [still, neg_zero, ite_self]
    have power : (0 : ℚ) < 2 ^ max (Int.log 2 |(0 : ℚ)| - 52) (-1074) := zpow_pos (by norm_num) _
    simpa using RoundsTo.of_multiple power 0
  have some : x.num.natAbs ≠ 0 := by simpa using zero
  rw [nearestExponent_eq some x.den_pos, num_div_den_eq_abs] at rounds
  generalize magnitude (nearest x.num.natAbs x.den) = y at rounds ⊢
  rcases lt_or_ge x 0 with below | above
  · rw [if_pos (decide_eq_true below)]
    have mirrored := rounds.neg
    rwa [abs_of_neg below, neg_neg, ← abs_of_neg below] at mirrored
  · rw [if_neg (by simpa using above)]
    rwa [abs_of_nonneg above] at rounds ⊢

end Binary64

end SciCalc
