/-
# SciCalc.Proofs.HalfEven -- the nearest multiple of a unit

`RoundsTo unit r x` says that `x` is the multiple of `unit` nearest to `r`, and of
two that are equally near the even one.  The unit is a power of ten where a result
is shown and a power of two where it is stored.  There is exactly one such `x`
(`RoundsTo.unique`), and what is a multiple already stays as it is
(`RoundsTo.eq_of_multiple`).

`roundHalfEven` finds it on natural numbers (`roundsTo_roundHalfEven`).
-/
import Mathlib
import SciCalc.Binary64

namespace SciCalc

set_option autoImplicit false

/-- The multiple of `unit` nearest to `r`, on a tie the even one. -/
def RoundsTo (unit r x : ℚ) : Prop :=
  ∃ n : ℤ, x = n * unit ∧ (2 * |r - x| < unit ∨ 2 * |r - x| = unit ∧ Even n)

namespace RoundsTo

variable {unit r x y : ℚ}

/-- A rounded number is off by half a unit at most. -/
theorem abs_sub_le (rounds : RoundsTo unit r x) : 2 * |r - x| ≤ unit := by
  obtain ⟨n, -, near | ⟨tie, -⟩⟩ := rounds
  · exact near.le
  · exact tie.le

/-- **There is only one nearest multiple.** -/
theorem unique (pos : 0 < unit) (first : RoundsTo unit r x) (second : RoundsTo unit r y) :
    x = y := by
  have close := first.abs_sub_le
  have close' := second.abs_sub_le
  obtain ⟨n, rfl, first⟩ := first
  obtain ⟨m, rfl, second⟩ := second
  have apart : |(n - m : ℚ)| * unit ≤ |r - n * unit| + |r - m * unit| := by
    have difference : (r - m * unit) - (r - n * unit) = (n - m : ℚ) * unit := by ring
    calc |(n - m : ℚ)| * unit = |(r - m * unit) - (r - n * unit)| := by
          rw [difference, abs_mul, abs_of_pos pos]
      _ ≤ |r - m * unit| + |r - n * unit| := abs_sub _ _
      _ = |r - n * unit| + |r - m * unit| := add_comm _ _
  by_contra differ
  have steps : 1 ≤ |n - m| := Int.one_le_abs (sub_ne_zero.2 fun same => differ (by rw [same]))
  have far : unit ≤ |(n - m : ℚ)| * unit := by
    have stepsQ : (1 : ℚ) ≤ |(n - m : ℚ)| := by exact_mod_cast steps
    nlinarith
  -- two multiples at distance one cannot both be even
  rcases first with near | ⟨tie, even⟩
  · linarith
  rcases second with near | ⟨tie', even'⟩
  · linarith
  have one : |(n - m : ℚ)| = 1 := by
    have upper : |(n - m : ℚ)| * unit ≤ 1 * unit := by linarith
    have lower : (1 : ℚ) ≤ |(n - m : ℚ)| := by exact_mod_cast steps
    exact le_antisymm (le_of_mul_le_mul_right upper pos) lower
  have oneZ : |n - m| = 1 := by exact_mod_cast one
  have parity := even.sub even'
  rcases abs_cases (n - m) with ⟨same, -⟩ | ⟨same, -⟩ <;> obtain ⟨k, half⟩ := parity <;> omega

theorem of_multiple (pos : 0 < unit) (n : ℤ) : RoundsTo unit (n * unit) (n * unit) :=
  ⟨n, rfl, .inl (by simpa using pos)⟩

/-- A multiple of the unit is not moved. -/
theorem eq_of_multiple (pos : 0 < unit) {n : ℤ} (multiple : r = n * unit)
    (rounds : RoundsTo unit r x) : x = r := by
  subst multiple
  exact rounds.unique pos (of_multiple pos n)

/-- Rounding to nearest looks at the magnitude only. -/
theorem neg (rounds : RoundsTo unit r x) : RoundsTo unit (-r) (-x) := by
  obtain ⟨n, rfl, near⟩ := rounds
  have mirrored : |(-r) - -(n * unit)| = |r - n * unit| := by
    rw [neg_sub_neg, abs_sub_comm]
  refine ⟨-n, by push_cast; ring, ?_⟩
  rw [mirrored]
  exact near.imp_right (And.imp_right Even.neg)

/-- Rounding a number scaled to its unit. -/
theorem scale (rounds : RoundsTo 1 r x) (pos : 0 < unit) :
    RoundsTo unit (r * unit) (x * unit) := by
  obtain ⟨n, rfl, near⟩ := rounds
  have scaled : 2 * |r * unit - n * 1 * unit| = 2 * |r - n * 1| * unit := by
    rw [← sub_mul, abs_mul, abs_of_pos pos, mul_assoc]
  refine ⟨n, by rw [mul_one], ?_⟩
  rw [scaled]
  refine near.imp (fun less => ?_) (And.imp_left fun tie => ?_)
  · exact (mul_lt_mul_of_pos_right less pos).trans_eq (one_mul unit)
  · rw [tie, one_mul]

/-- **What is rounded below an even multiple** was nearer to the multiple before it. -/
theorem lt_iff_of_even (pos : 0 < unit) {n : ℤ} (even : Even n) (rounds : RoundsTo unit r x) :
    x < n * unit ↔ 2 * r < (2 * n - 1) * unit := by
  have close := abs_le.1 (show |2 * (r - x)| ≤ unit by
    rw [abs_mul, abs_two]
    exact rounds.abs_sub_le)
  obtain ⟨m, rfl, near⟩ := rounds
  rw [mul_lt_mul_iff_left₀ pos, Int.cast_lt]
  constructor
  · intro below
    have stepsQ : (m : ℚ) ≤ n - 1 := by exact_mod_cast Int.le_sub_one_of_lt below
    have upper : m * unit ≤ (n - 1) * unit := mul_le_mul_of_nonneg_right stepsQ pos.le
    refine lt_of_le_of_ne (by linarith) fun tie => ?_
    -- halfway between the two multiples the even one would have been taken
    have last : m * unit = (n - 1) * unit := le_antisymm upper (by linarith)
    have lastZ : m = n - 1 := by
      have := mul_right_cancel₀ pos.ne' last
      exact_mod_cast this
    rcases near with inside | ⟨-, evenLast⟩
    · have off : 2 * |r - m * unit| = unit := by
        rw [show r - m * unit = unit / 2 by linarith, abs_of_pos (by linarith)]
        ring
      exact inside.ne off
    · obtain ⟨k, rfl⟩ := even
      obtain ⟨l, odd⟩ := evenLast
      omega
  · intro near
    by_contra notBelow
    have stepsQ : (n : ℚ) ≤ m := by exact_mod_cast not_lt.1 notBelow
    have lower : n * unit ≤ m * unit := mul_le_mul_of_nonneg_right stepsQ pos.le
    linarith

end RoundsTo

/-- **A quotient is rounded to the nearest natural number**, a tie going to the even one. -/
theorem roundsTo_roundHalfEven (num : ℕ) {den : ℕ} (pos : 0 < den) :
    RoundsTo 1 ((num : ℚ) / den) (roundHalfEven num den) := by
  have posQ : (0 : ℚ) < den := by exact_mod_cast pos
  have split : (num : ℚ) / den = (num / den : ℕ) + (num % den : ℕ) / den := by
    have whole : (num : ℚ) = den * (num / den : ℕ) + (num % den : ℕ) := by
      exact_mod_cast (Nat.div_add_mod num den).symm
    field_simp
    linarith
  have under : (num % den : ℕ) < den := Nat.mod_lt num pos
  rw [split]
  unfold roundHalfEven
  simp only
  generalize num / den = q
  generalize num % den = m at under
  have part : (0 : ℚ) ≤ (m : ℚ) / den ∧ (m : ℚ) / den < 1 :=
    ⟨by positivity, (div_lt_one posQ).2 (by exact_mod_cast under)⟩
  split
  · rename_i below
    have less : 2 * ((m : ℚ) / den) < 1 := by
      rw [← mul_div_assoc, div_lt_one posQ]
      exact_mod_cast below
    refine ⟨q, by simp, .inl ?_⟩
    rwa [add_sub_cancel_left, abs_of_nonneg part.1]
  · rename_i notBelow
    split
    · rename_i above
      have more : 1 < 2 * ((m : ℚ) / den) := by
        rw [← mul_div_assoc, one_lt_div posQ]
        exact_mod_cast above
      refine ⟨q + 1, by push_cast; ring, .inl ?_⟩
      push_cast
      rw [add_sub_add_left_eq_sub, abs_sub_comm, abs_of_pos (by linarith)]
      linarith
    · rename_i notAbove
      have half : (m : ℚ) / den = 1 / 2 := by
        have tie : 2 * m = den := by omega
        rw [div_eq_div_iff posQ.ne' (by norm_num), one_mul, mul_comm]
        exact_mod_cast tie
      rcases Nat.mod_two_eq_zero_or_one q with even | odd
      · refine ⟨q, by rw [even]; simp, .inr ⟨?_, ?_⟩⟩
        · rw [even, half]
          norm_num
        · exact_mod_cast Nat.even_iff.2 even
      · refine ⟨q + 1, by rw [odd]; push_cast; ring, .inr ⟨?_, ?_⟩⟩
        · rw [odd, half]
          push_cast
          rw [add_sub_add_left_eq_sub]
          norm_num
        · exact_mod_cast Nat.even_add_one.2 (by rw [Nat.even_iff, odd]; decide)

end SciCalc
