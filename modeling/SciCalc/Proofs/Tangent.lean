/-
# SciCalc.Proofs.Tangent -- where the tangent in degrees is undefined

The tangent in degrees is refused when the angle, brought into a half turn, is the
double ninety.  The remainder that brings it there is exact, for its significand is
no longer than that of the angle (`Binary64.toRat_remainder`); one addition of 180
is rounded, but a sum next to ninety has no more bits than a double holds
(`Binary64.toRat_add_half_turn`).  So the angles refused are the odd multiples of
ninety, whatever their size and sign (`Binary64.leastRemainder_eq_ninety_iff`).
-/
import Mathlib
import SciCalc.Proofs.Arithmetic
import SciCalc.Proofs.Binary64.Results

namespace SciCalc

set_option autoImplicit false

namespace Binary64

variable {v r : Float}

/-! ## Numbers that are stored as they are -/

/-- **A fraction of at most fifty-three bits is stored as it is.** -/
theorem magnitude_nearest_of_short {num den m : Nat} {e : Int} (pos : 0 < den)
    (value : (num : ℚ) / den = m * 2 ^ e) (short : m < 2 ^ 53) (least : -1074 ≤ e)
    (finite : (nearest num den).isFinite = true) : magnitude (nearest num den) = num / den := by
  have rounds := roundsTo_nearest pos finite
  by_cases none : num = 0
  · exact rounds.eq_of_multiple (n := 0) (by positivity) (by simp [none])
  have some : m ≠ 0 := by
    rintro rfl
    rw [Nat.cast_zero, zero_mul, div_eq_zero_iff] at value
    rcases value with zero | zero
    · exact none (by exact_mod_cast zero)
    · exact pos.ne' (by exact_mod_cast zero)
  have bits := (Nat.log2_lt some (k := 53)).2 short
  have below : nearestExponent num den ≤ e := by
    rw [nearestExponent_eq none pos, value, log_mul_zpow some]
    omega
  generalize nearestExponent num den = u at rounds below
  refine rounds.eq_of_multiple (n := m * 2 ^ (e - u).toNat) (by positivity) ?_
  rw [value]
  push_cast
  rw [mul_assoc, ← zpow_natCast, ← zpow_add₀ (by norm_num), Int.toNat_of_nonneg (by omega),
    Int.sub_add_cancel]

/-! ## The remainder -/

/-- The numerator of a remainder, over the denominator of the double. -/
def rest (v : Float) (k : Nat) : Nat := numerator v % (k * denominator v)

theorem remainder_eq (finite : v.isFinite = true) (k : Nat) :
    remainder v k = signedNearest (isNegative v) (rest v k) (denominator v) := if_pos finite

/-- The rest is less than the divisor, and a whole number of divisors short of the magnitude. -/
theorem rest_spec (v : Float) {k : Nat} (some : 0 < k) :
    (rest v k : ℚ) / denominator v < k ∧
      ∃ n : Nat, magnitude v = rest v k / denominator v + k * n := by
  have pos : (0 : ℚ) < denominator v := by exact_mod_cast denominator_pos v
  constructor
  · rw [div_lt_iff₀ pos]
    exact_mod_cast Nat.mod_lt (numerator v) (Nat.mul_pos some (denominator_pos v))
  · refine ⟨numerator v / (k * denominator v), ?_⟩
    have parts : (numerator v : ℚ) =
        k * denominator v * (numerator v / (k * denominator v) : Nat) + rest v k := by
      exact_mod_cast (Nat.div_add_mod _ _).symm
    rw [magnitude, div_add' _ _ _ pos.ne']
    congr 1
    linarith

/-- **The rest is stored as it is**: a whole number has a small rest, and a fraction one no longer
than itself. -/
theorem magnitude_nearest_rest {k : Nat} (some : 0 < k) (small : k ≤ 256)
    (finite : (nearest (rest v k) (denominator v)).isFinite = true) :
    magnitude (nearest (rest v k) (denominator v)) = rest v k / denominator v := by
  have least := (canonical v).least
  have below : rest v k < k * denominator v := Nat.mod_lt _ (Nat.mul_pos some (denominator_pos v))
  have short : rest v k < 2 ^ 53 := by
    rcases whole_or_small v with whole | few
    · rw [whole] at below
      omega
    · exact (Nat.mod_le _ _).trans_lt few
  have value : (rest v k : ℚ) / denominator v = rest v k * 2 ^ min (exponent v) 0 := by
    have point : (-min (exponent v) 0).toNat = (-exponent v).toNat := by omega
    have raised : (min (exponent v) 0).toNat = 0 := by omega
    rw [zpow_eq_div, point, raised, denominator_def]
    push_cast
    ring
  exact magnitude_nearest_of_short (denominator_pos v) value short (by omega) finite

/-- **A remainder is exact**: it differs from the double by a multiple of the divisor and is less
than it. -/
theorem toRat_remainder (finite : v.isFinite = true) {k : Nat} (some : 0 < k) (small : k ≤ 256) :
    ∃ n : ℤ, toRat (remainder v k) = toRat v - k * n ∧ |toRat (remainder v k)| < k := by
  have number := (within_remainder finite some small).1
  rw [remainder_eq finite, isFinite_signedNearest_iff] at number
  obtain ⟨less, n, whole⟩ := rest_spec v some
  have nonneg : (0 : ℚ) ≤ rest v k / denominator v := by positivity
  rw [remainder_eq finite, toRat_signedNearest _ number, magnitude_nearest_rest some small number,
    toRat, whole]
  generalize (rest v k : ℚ) / denominator v = y at less nonneg ⊢
  cases isNegative v with
  | false =>
      refine ⟨n, ?_, ?_⟩
      · simp
      · simpa [abs_of_nonneg nonneg] using less
  | true =>
      refine ⟨-n, ?_, ?_⟩
      · simp
      · simpa [abs_of_nonneg nonneg] using less

/-! ## The half turn -/

theorem toRat_ninety : toRat 90 = 90 := by
  have parts : isNegative 90 = false ∧ numerator 90 = 90 * denominator 90 := by decide +kernel
  exact_mod_cast toRat_of_parts parts.1 parts.2

theorem toRat_half_turn : toRat (Float.ofNat 180) = 180 := by
  have parts : isNegative (Float.ofNat 180) = false ∧
      numerator (Float.ofNat 180) = 180 * denominator (Float.ofNat 180) := by decide +kernel
  exact_mod_cast toRat_of_parts parts.1 parts.2

/-- **What is rounded to ninety is next to it**: a unit is below one there, so the number is in the
same power of two, where the unit is `2 ^ -46`. -/
theorem log_of_roundsTo_ninety {x : ℚ} (pos : 0 < x) (small : x < 256)
    (rounds : RoundsTo (2 ^ max (Int.log 2 x - 52) (-1074)) x 90) :
    |x - 90| ≤ 1 ∧ Int.log 2 x = 6 := by
  have log : Int.log 2 x < 8 :=
    (Int.lt_zpow_iff_log_lt one_lt_two pos).1 (by norm_num; exact small)
  have unit : (2 : ℚ) ^ max (Int.log 2 x - 52) (-1074) ≤ 1 :=
    zpow_le_one_of_nonpos₀ (by norm_num) (by omega)
  have close := rounds.abs_sub_le
  have near : |x - 90| ≤ 1 := by linarith [abs_nonneg (x - 90)]
  obtain ⟨above, below⟩ := abs_le.1 near
  exact ⟨near, log_eq one_lt_two (by norm_num; linarith) (by norm_num; linarith)⟩

/-- **An addition of a half turn that gives ninety is exact.**  A sum that is rounded to ninety is
next to it, and there the multiples that a double holds are those of the summand as well. -/
theorem toRat_add_half_turn (finite : r.isFinite = true)
    (finite' : (r + Float.ofNat 180).isFinite = true) (above : -180 < toRat r)
    (below : toRat r < 0) : toRat (r + Float.ofNat 180) = 90 ↔ toRat r = -90 := by
  have half : (Float.ofNat 180).isFinite = true := by decide +kernel
  have sum := add_eq_ofRat finite half (by rw [toRat_half_turn]; linarith)
  rw [toRat_half_turn] at sum
  constructor
  · intro ninety
    rw [sum] at finite' ninety
    have rounds := roundsTo_ofRat (toRat r + 180) finite'
    rw [ninety, abs_of_pos (by linarith)] at rounds
    obtain ⟨near, log⟩ := log_of_roundsTo_ninety (by linarith) (by linarith) rounds
    have size : 2 ^ 53 * 2 ^ (-47 : Int) ≤ |toRat r| := by
      have upper := (abs_le.1 near).2
      rw [abs_of_neg below]
      norm_num
      linarith
    have leading : -46 ≤ exponent r := lt_exponent size
    have multiple : toRat r + 180 =
        ((sign r).apply (significand r <<< (exponent r - -46).toNat : Nat) + 180 * 2 ^ 46 : Int) *
          2 ^ max (Int.log 2 (toRat r + 180) - 52) (-1074) := by
      rw [log, show max (6 - 52) (-1074) = (-46 : Int) by decide, Int.cast_add, add_mul,
        apply_shiftLeft _ _ leading, ← toRat_eq_apply]
      norm_num
    have same := rounds.eq_of_multiple (by positivity) multiple
    linarith
  · intro opposite
    have some : significand 90 ≠ 0 := by decide +kernel
    rw [sum, opposite, show (-90 + 180 : ℚ) = toRat 90 by rw [toRat_ninety]; norm_num,
      ofRat_toRat (by decide +kernel) some, toRat_ninety]

/-- A remainder below a half turn is that of an odd multiple of ninety if it is ninety, above or
below zero. -/
theorem odd_multiple_iff {x y : ℚ} {n : ℤ} (value : y = x - 180 * n) (less : |y| < 180) :
    (∃ k : ℤ, x = 90 + 180 * k) ↔ y = 90 ∨ y = -90 := by
  obtain ⟨above, below⟩ := abs_lt.1 less
  constructor
  · rintro ⟨k, rfl⟩
    have shifted : y = 90 + 180 * (k - n : ℤ) := by
      rw [value]
      push_cast
      ring
    have low : (-2 : ℚ) < (k - n : ℤ) := by linarith
    have high : ((k - n : ℤ) : ℚ) < 1 := by linarith
    have one_of : k - n = 0 ∨ k - n = -1 := by
      have low' : -2 < k - n := by exact_mod_cast low
      have high' : k - n < 1 := by exact_mod_cast high
      omega
    refine one_of.imp (fun same => ?_) fun same => ?_ <;>
    · rw [shifted, same]
      norm_num
  · rintro (ninety | opposite)
    · exact ⟨n, by linarith⟩
    · exact ⟨n - 1, by push_cast; linarith⟩

/-- **The angles that are brought to ninety** are the odd multiples of ninety. -/
theorem leastRemainder_eq_ninety_iff (finite : v.isFinite = true) :
    (leastRemainder v 180 == 90) = true ↔ ∃ k : ℤ, toRat v = 90 + 180 * k := by
  have finite' := isFinite_leastRemainder finite
  have number := (within_remainder finite (k := 180) (by decide) (by decide)).1
  obtain ⟨n, value, less⟩ := toRat_remainder finite (k := 180) (by decide) (by decide)
  have negative : remainder v 180 < 0 ↔ toRat (remainder v 180) < 0 := by
    rw [lt_iff_toRat number (by decide +kernel), toRat_zero]
  rw [odd_multiple_iff (by exact_mod_cast value) (by exact_mod_cast less),
    beq_iff_toRat finite' (by decide +kernel), toRat_ninety]
  have above := (abs_lt.1 less).1
  unfold leastRemainder at finite' ⊢
  generalize remainder v 180 = r at *
  simp only at finite' ⊢
  by_cases below : r < 0
  · rw [if_pos below] at finite' ⊢
    rw [toRat_add_half_turn number finite' (by exact_mod_cast above) (negative.1 below),
      or_iff_right]
    have := negative.1 below
    linarith
  · rw [if_neg below, or_iff_left]
    have := mt negative.2 below
    linarith

end Binary64

/-! ## The tangent -/

namespace Arithmetic

open Binary64

variable {lib : Elementary} {v : Float}

theorem tanRadians_of_number (noInf : ∀ w : Float, (lib.tan w).isInf = false) (v : Float) :
    tanRadians lib v = .ok (lib.tan v) := by
  rw [tanRadians]
  simp [noInf]

/-- **The tangent in degrees is undefined at the odd multiples of ninety and nowhere else**: the
angle is named in the fault, and at any other finite angle there is a value. -/
theorem tan_degrees_isDomain_iff (lib : Elementary)
    (noInf : ∀ w : Float, (lib.tan w).isInf = false) (v : Float) (finite : v.isFinite = true) :
    ((∃ fault, tan lib .degrees v = .error fault ∧ fault.kind = .domain) ↔
        ∃ k : ℤ, toRat v = 90 + 180 * k) ∧
      ∀ fault, tan lib .degrees v = .error fault →
        fault = .outOfDomain (.tangentUndefinedAt v) := by
  rw [← leastRemainder_eq_ninety_iff finite, tan]
  simp only [tanRadians_of_number noInf]
  split
  · rename_i ninety
    exact ⟨iff_of_true ⟨_, rfl, rfl⟩ ninety, fun fault failed => (Except.error.inj failed).symm⟩
  · rename_i other
    exact ⟨iff_of_false (fun ⟨_, failed, _⟩ => nomatch failed) other, nofun⟩

/-- Fifty million million half turns and a quarter turn, backwards. -/
theorem tan_degrees_isDomain_iff_large :
    let lib : Elementary := { Elementary.machine with tan := fun _ => 0 }
    let v : Float := -9000000000000090
    (∀ w : Float, (lib.tan w).isInf = false) ∧ v.isFinite = true ∧
      tan lib .degrees v = .error (.outOfDomain (.tangentUndefinedAt v)) := by
  intro lib v
  have noInf : ∀ w : Float, (lib.tan w).isInf = false := fun _ => by
    show (0 : Float).isInf = false
    decide +kernel
  have finite : v.isFinite = true := by decide +kernel
  have parts : isNegative 9000000000000090 = false ∧
      numerator 9000000000000090 = 9000000000000090 * denominator 9000000000000090 := by
    decide +kernel
  have value : toRat v = 90 + 180 * (-50000000000001 : ℤ) := by
    have whole := toRat_of_parts parts.1 parts.2
    rw [toRat_neg (by decide +kernel), whole]
    norm_num
  obtain ⟨domain, named⟩ := tan_degrees_isDomain_iff lib noInf v finite
  obtain ⟨fault, failed, -⟩ := domain.2 ⟨_, value⟩
  exact ⟨noInf, finite, by rw [failed, named fault failed]⟩

end Arithmetic

end SciCalc
