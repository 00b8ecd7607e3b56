/-
# SciCalc.Proofs.Display -- what is shown is the result, correctly rounded

What is shown of a finite double is read back as its value rounded to the nearest
multiple of `Display.unit`, a power of ten that is fixed where results are plain
and follows the first digit elsewhere (`Display.result_spec`).

The text without the zeros at its end is that of the trimmed decimal of the
rounded magnitude (`Display.result_eq_shown`, `Display.rounded_spec`), and there is
one trimmed decimal for each value; so the text hangs on the rounded value alone,
zero is shown without a sign, and no zero stands at the end behind a point.
-/
import Mathlib
import SciCalc.Proofs.Binary64.Grid
import SciCalc.Proofs.Display.Layouts

namespace SciCalc

set_option autoImplicit false

namespace Display

open Binary64

variable {d d' : Decimal} {digits : Nat} {v : Float}

/-! ## The rounded magnitude -/

/-- Whether a result is written without an exponent. -/
def Plain (r : ℚ) : Prop := 1 / 10 ^ 9 ≤ |r| ∧ |r| < 10 ^ 15

instance (r : ℚ) : Decidable (Plain r) := inferInstanceAs (Decidable (_ ∧ _))

/-- The power of ten that a result is rounded to a multiple of: so many places, or so many digits
behind the first one. -/
def unit (digits : Nat) (r : ℚ) : ℚ :=
  if Plain r then 10 ^ (-(digits : Int)) else 10 ^ (Int.log 10 |r| - min digits scientificPlaces)

theorem unit_pos (digits : Nat) (r : ℚ) : 0 < unit digits r := by
  unfold unit
  split <;> positivity

/-- **The least plain double** is above 10^-9, and the one before it is below. -/
theorem least_plain_le_iff (finite : v.isFinite = true) :
    (1e-9 : Float) ≤ v.abs ↔ 1 / 10 ^ 9 ≤ |toRat v| := by
  have number := isNaN_of_isFinite finite
  have least : (1e-9 : Float).isFinite = true ∧ isNegative 1e-9 = false ∧
      significand 1e-9 = 4835703278458516 + 1 ∧ exponent 1e-9 = -82 := by decide +kernel
  have next := canonical 1e-9
  rw [least.2.2.1, least.2.2.2] at next
  have value : toRat 1e-9 = (4835703278458516 + 1 : Nat) * 2 ^ (-82 : Int) := by
    rw [toRat, least.2.1, if_neg Bool.false_ne_true, magnitude_eq, least.2.2.1, least.2.2.2]
  rw [le_iff_toRat least.1 (isFinite_abs finite), toRat_abs number, value, abs_toRat]
  constructor
  · intro above
    exact le_trans (by norm_num) above
  · intro above
    by_contra below
    rw [magnitude_eq] at above below
    have atMost := (canonical v).le_of_lt_next next (by decide) (not_le.1 below)
    exact absurd (above.trans atMost) (by norm_num)

theorem lt_greatest_plain_iff (finite : v.isFinite = true) :
    v.abs < (1e15 : Float) ↔ |toRat v| < 10 ^ 15 := by
  have number := isNaN_of_isFinite finite
  have greatest : (1e15 : Float).isFinite = true ∧ isNegative 1e15 = false ∧
      numerator 1e15 = 10 ^ 15 * denominator 1e15 := by decide +kernel
  rw [lt_iff_toRat (isFinite_abs finite) greatest.1, toRat_of_parts greatest.2.1 greatest.2.2,
    toRat_abs number, abs_toRat]
  norm_num

theorem isPlain_iff (finite : v.isFinite = true) : isPlain v.abs = true ↔ Plain (toRat v) := by
  rw [isPlain, Bool.and_eq_true, decide_eq_true_iff, decide_eq_true_iff,
    least_plain_le_iff finite, lt_greatest_plain_iff finite]
  rfl

theorem beq_zero_iff (finite : v.isFinite = true) : (v == 0) = true ↔ toRat v = 0 := by
  rw [beq_iff_toRat finite (by decide +kernel), toRat_zero]

/-- The decimal that stands for the magnitude of a finite double, zeros at its end dropped. -/
def rounded (digits : Nat) (v : Float) : Decimal :=
  if v == 0 then ⟨0, 0⟩
  else
    let num := Binary64.numerator v
    let den := Binary64.denominator v
    (if isPlain v.abs then Decimal.toPlaces num den digits
    else Decimal.toDigits num den (min digits scientificPlaces)).trimmed

/-- **The decimal that is shown** is trimmed, and its value is the magnitude rounded to the unit. -/
theorem rounded_spec (digits : Nat) (finite : v.isFinite = true) :
    (rounded digits v).IsTrimmed ∧
      RoundsTo (unit digits (toRat v)) |toRat v| (rounded digits v).value := by
  unfold rounded
  by_cases none : (v == 0) = true
  · rw [if_pos none, (beq_zero_iff finite).1 none]
    refine ⟨.inr rfl, ?_⟩
    simpa [Decimal.value] using RoundsTo.of_multiple (unit_pos digits 0) 0
  · rw [if_neg none]
    have some : numerator v ≠ 0 := by
      intro zero
      apply none
      rw [beq_zero_iff finite, ← abs_eq_zero, abs_toRat, Binary64.magnitude, zero, Nat.cast_zero,
        zero_div]
    have pos := denominator_pos v
    refine ⟨Decimal.isTrimmed_trimmed _, ?_⟩
    rw [Decimal.value_trimmed, unit]
    by_cases plain : Plain (toRat v)
    · rw [if_pos ((isPlain_iff finite).2 plain), if_pos plain, abs_toRat]
      exact Decimal.roundsTo_toPlaces _ pos digits
    · rw [if_neg (mt (isPlain_iff finite).1 plain), if_neg plain, abs_toRat]
      exact_mod_cast Decimal.roundsTo_toDigits some pos (min digits scientificPlaces)

/-- The value of a decimal with a sign. -/
def signedValue (negative : Bool) (d : Decimal) : ℚ := if negative then -d.value else d.value

theorem roundsTo_signedValue (digits : Nat) (finite : v.isFinite = true) :
    RoundsTo (unit digits (toRat v)) (toRat v) (signedValue (isNegative v) (rounded digits v)) := by
  have rounds := (rounded_spec digits finite).2
  generalize unit digits (toRat v) = step at rounds ⊢
  rw [abs_toRat] at rounds
  rw [signedValue, toRat]
  cases isNegative v with
  | false => exact rounds
  | true => exact rounds.neg

/-- Outside the plain results nothing but zero is rounded to zero. -/
theorem eq_zero_of_roundsTo_zero {r : ℚ} (notPlain : ¬ Plain r)
    (zero : RoundsTo (unit digits r) r 0) : r = 0 := by
  by_contra some
  have pos : 0 < |r| := abs_pos.2 some
  have close := zero.abs_sub_le
  rw [sub_zero, unit, if_neg notPlain] at close
  have first : (10 : ℚ) ^ (Int.log 10 |r| - min digits scientificPlaces) ≤ 10 ^ Int.log 10 |r| :=
    zpow_le_zpow_right₀ (by norm_num) (by omega)
  have below : (10 : ℚ) ^ Int.log 10 |r| ≤ |r| := by
    exact_mod_cast Int.zpow_log_le_self (b := 10) (by decide) pos
  linarith

/-- Outside the plain results nothing but zero is shown as zero. -/
theorem coefficient_rounded_ne_zero (digits : Nat) (finite : v.isFinite = true)
    (some : ¬ (v == 0) = true) (notPlain : ¬ isPlain v.abs = true) :
    (rounded digits v).coefficient ≠ 0 := by
  intro zero
  have rounds := roundsTo_signedValue digits finite
  have none : signedValue (isNegative v) (rounded digits v) = 0 := by
    rw [signedValue, Decimal.value_eq_zero_iff.2 zero, neg_zero, ite_self]
  rw [none] at rounds
  apply some
  rw [beq_zero_iff finite]
  exact eq_zero_of_roundsTo_zero (mt (isPlain_iff finite).2 notPlain) rounds

/-! ## The text -/

/-- A decimal with a sign, as it is shown: zero has no sign. -/
def shown (plain negative : Bool) (d : Decimal) : Text :=
  if negative && d.coefficient != 0 then
    '-' :: (if plain then d.positional else d.scientific)
  else if plain then d.positional else d.scientific

theorem shown_zero (negative : Bool) : shown true negative ⟨0, 0⟩ = "0" := by
  cases negative <;> rfl

/-- A trimmed decimal is written `0` for zero only. -/
theorem positional_eq_zero_iff (trim : d.IsTrimmed) :
    d.positional = "0" ↔ d.coefficient = 0 := by
  constructor
  · intro zero
    have read := (writes_positional d).reads
    rw [zero, show magnitudeOf? "0" = some 0 by decide +kernel] at read
    exact Decimal.value_eq_zero_iff.1 (Option.some.inj read).symm
  · intro none
    rw [trim.eq_zero (Decimal.value_eq_zero_iff.2 none)]
    rfl

/-- **Places without the zeros at the end** are those of the trimmed decimal. -/
theorem plain_eq_shown (digits : Nat) (finite : v.isFinite = true) :
    plain digits v = shown true (isNegative v)
      (Decimal.toPlaces (numerator v) (denominator v) digits).trimmed := by
  have places : (Decimal.toPlaces (numerator v) (denominator v) digits).exponent ≤ 0 :=
    Int.neg_nonpos_of_nonneg (Int.natCast_nonneg digits)
  rw [plain, Number.fixed, Number.signed_of_isFinite finite]
  generalize Decimal.toPlaces (numerator v) (denominator v) digits = d at places ⊢
  have stripped := withoutEndZeros_positional (d := d) (.inr places)
  have zero := positional_eq_zero_iff d.isTrimmed_trimmed
  rw [shown]
  -- the text begins with a digit, so `-0` is a minus sign before the text of zero
  cases isNegative v with
  | false =>
      have unsigned : d.trimmed.positional ≠ "-0".toList := by
        obtain ⟨c, first, digit⟩ := (writes_positional d.trimmed).digit
        intro same
        rw [same] at first
        cases first
        cases digit
      simp only [Bool.false_eq_true, if_false, stripped, if_neg unsigned]
      rfl
  | true =>
      have minus : '-' :: d.trimmed.positional = "-0".toList ↔ d.trimmed.coefficient = 0 :=
        (List.cons_inj_right '-').trans zero
      simp only [if_true, withoutEndZeros_minus, stripped]
      by_cases none : d.trimmed.coefficient = 0
      · rw [if_pos (minus.2 none), none, zero.2 none]
        rfl
      · rw [if_neg (mt minus.1 none), bne_iff_ne.2 none]
        rfl

theorem withExponent_eq_shown (digits : Nat) (finite : v.isFinite = true)
    (some : ¬ (v == 0) = true)
    (proper : (Decimal.toDigits (numerator v) (denominator v)
      (min digits scientificPlaces)).coefficient ≠ 0) :
    withExponent digits v = shown false (isNegative v)
      (Decimal.toDigits (numerator v) (denominator v) (min digits scientificPlaces)).trimmed := by
  rw [withExponent, Number.scientificTo, Number.signed_of_isFinite finite, if_neg some]
  generalize Decimal.toDigits _ _ _ = d at proper ⊢
  have stripped := withoutSignificandZeros_scientific proper
  have proper' := mt Decimal.coefficient_trimmed_eq_zero_iff.1 proper
  rw [shown, bne_iff_ne.2 proper']
  cases isNegative v with
  | false => simpa using stripped
  | true => simpa [withoutSignificandZeros_minus] using stripped

/-- **The text that is shown** is that of the rounded decimal. -/
theorem result_eq_shown (digits : Nat) (finite : v.isFinite = true) :
    result digits v = shown (v == 0 || isPlain v.abs) (isNegative v) (rounded digits v) := by
  unfold result
  by_cases none : (v == 0) = true
  · rw [if_pos none, none, Bool.true_or, rounded, if_pos none, shown_zero]
  · rw [if_neg none, finite, if_neg (by decide), Bool.eq_false_iff.2 none, Bool.false_or]
    by_cases plain : isPlain v.abs = true
    · rw [if_pos plain, plain, plain_eq_shown digits finite, rounded, if_neg none]
      simp only [if_pos plain]
    · have proper := coefficient_rounded_ne_zero digits finite none plain
      rw [rounded, if_neg none] at proper ⊢
      simp only [if_neg plain] at proper ⊢
      rw [Bool.eq_false_iff.2 plain, withExponent_eq_shown digits finite none
        (mt Decimal.coefficient_trimmed_eq_zero_iff.2 proper)]

/-- What is not finite is shown by its name. -/
theorem result_of_not_finite (digits : Nat) (infinite : v.isFinite = false) :
    result digits v = Number.text v := by
  have some : ¬ (v == 0) = true := by
    intro zero
    rw [isFinite_of_beq_zero zero] at infinite
    cases infinite
  rw [result, if_neg some, infinite, if_pos (by decide)]

theorem writes_layout (plain : Bool) (d : Decimal) :
    Writes (if plain then d.positional else d.scientific) d := by
  cases plain with
  | false => exact writes_scientific d
  | true => exact writes_positional d

theorem valueOf?_shown (plain negative : Bool) (d : Decimal) :
    valueOf? (shown plain negative d) = some (signedValue negative d) := by
  have written := writes_layout plain d
  unfold shown
  split
  · rename_i signed
    rw [Bool.and_eq_true] at signed
    rw [valueOf?, signed?_minus, written.reads, signedValue, if_pos signed.1]
    rfl
  · rename_i unsigned
    rw [valueOf?, signed?_of_digit _ written.digit, written.reads, signedValue]
    cases negative with
    | false => rfl
    | true =>
        have none : d.coefficient = 0 := by simpa using unsigned
        rw [if_pos rfl, Decimal.value_eq_zero_iff.2 none, neg_zero]

/-- A minus sign is before all that has to be tidy. -/
theorem IsTidy.minus {t : Text} (tidy : IsTidy t) : IsTidy ('-' :: t) := by
  intro point
  have part : significandPart ('-' :: t) = '-' :: significandPart t := by
    rw [significandPart, List.takeWhile_cons_of_pos (by decide)]
    rfl
  rw [part] at point ⊢
  have point' : '.' ∈ significandPart t := (List.mem_cons.1 point).resolve_left (by decide)
  rw [List.getLast?_cons_of_ne_nil (List.ne_nil_of_mem point')]
  exact tidy point'

theorem isTidy_shown (plain negative : Bool) (trim : d.IsTrimmed) :
    IsTidy (shown plain negative d) := by
  have tidy := (writes_layout plain d).tidy trim
  unfold shown
  split
  · exact tidy.minus
  · exact tidy

/-- **The text hangs on the value alone.** -/
theorem shown_congr (plain : Bool) {negative negative' : Bool} (trim : d.IsTrimmed)
    (trim' : d'.IsTrimmed) (same : signedValue negative d = signedValue negative' d') :
    shown plain negative d = shown plain negative' d' := by
  have magnitudes : d.value = d'.value := by
    have absolute := congrArg abs same
    rw [signedValue, signedValue] at absolute
    cases negative <;> cases negative' <;>
      simpa [abs_of_nonneg (Decimal.value_nonneg _)] using absolute
  obtain rfl := trim.eq_of_value trim' magnitudes
  by_cases none : d.coefficient = 0
  · simp [shown, none]
  · have signs : negative = negative' := by
      have some : d.value ≠ 0 := mt Decimal.value_eq_zero_iff.1 none
      rw [signedValue, signedValue] at same
      cases negative <;> cases negative' <;> first | rfl | skip
      · exact absurd (self_eq_neg.1 same) some
      · exact absurd (self_eq_neg.1 same.symm) some
    rw [signs]

/-- What is shown of a finite double whose value is rounded to zero. -/
theorem result_of_roundsTo_zero (finite : v.isFinite = true)
    (zero : RoundsTo (unit digits (toRat v)) (toRat v) 0) : result digits v = "0" := by
  obtain ⟨trim, rounds⟩ := rounded_spec digits finite
  have none : (rounded digits v).value = 0 := by
    have same := (roundsTo_signedValue digits finite).unique (unit_pos _ _) zero
    rw [signedValue] at same
    split at same
    · exact neg_eq_zero.1 same
    · exact same
  have plain : (v == 0 || isPlain v.abs) = true := by
    rw [Bool.or_eq_true, beq_zero_iff finite, isPlain_iff finite]
    by_cases plain : Plain (toRat v)
    · exact .inr plain
    · exact .inl (eq_zero_of_roundsTo_zero plain zero)
  rw [result_eq_shown digits finite, plain, trim.eq_zero none, shown_zero]

/-- Zero is read with a sign as well, but it is not shown with one. -/
theorem valueOf?_zero : valueOf? "0" = some 0 ∧ valueOf? "-0" = some 0 := by decide +kernel

/-- A double that is not rounded to zero is written as its range says. -/
theorem layout_of_roundsTo {x : ℚ} (finite : v.isFinite = true)
    (rounds : RoundsTo (unit digits (toRat v)) (toRat v) x) (some : x ≠ 0) :
    (v == 0 || isPlain v.abs) = decide (Plain (toRat v)) := by
  have some' : ¬ toRat v = 0 := by
    intro none
    rw [none] at rounds
    exact some (rounds.eq_of_multiple (unit_pos _ _) (n := 0) (by simp))
  rw [Bool.eq_iff_iff, Bool.or_eq_true, beq_zero_iff finite, isPlain_iff finite,
    decide_eq_true_iff, or_iff_right some']

/-- **Doubles of one range that are rounded to the same number** are shown by the same text. -/
theorem result_congr {digits' : Nat} {w : Float} {x : ℚ} (finite : v.isFinite = true)
    (finite' : w.isFinite = true) (range : Plain (toRat w) ↔ Plain (toRat v))
    (rounds : RoundsTo (unit digits (toRat v)) (toRat v) x)
    (rounds' : RoundsTo (unit digits' (toRat w)) (toRat w) x) :
    result digits' w = result digits v := by
  by_cases none : x = 0
  · subst none
    rw [result_of_roundsTo_zero finite rounds, result_of_roundsTo_zero finite' rounds']
  · have same := (roundsTo_signedValue digits finite).unique (unit_pos _ _) rounds
    have same' := (roundsTo_signedValue digits' finite').unique (unit_pos _ _) rounds'
    rw [result_eq_shown digits' finite', result_eq_shown digits finite,
      layout_of_roundsTo finite' rounds' none, layout_of_roundsTo finite rounds none,
      decide_eq_decide.2 range]
    exact shown_congr _ (rounded_spec digits' finite').1 (rounded_spec digits finite).1
      (same'.trans same.symm)

/-- **What is shown of a finite double is its value, rounded to the nearest multiple of its unit**,
a tie going to the even one.  It is read back as that number, it is `0` for zero and for nothing
else, no zero or point stands idle in it, and any double of the same range that is rounded to the
same number is shown by the same text. -/
theorem result_spec (digits : Nat) (v : Float) (finite : v.isFinite = true) :
    ∃ x : ℚ, RoundsTo (unit digits (toRat v)) (toRat v) x ∧
      valueOf? (result digits v) = some x ∧ IsTidy (result digits v) ∧
      (result digits v = "0" ↔ x = 0) ∧ result digits v ≠ "-0" ∧
      ∀ (digits' : Nat) (w : Float), w.isFinite = true →
        (Plain (toRat w) ↔ Plain (toRat v)) → RoundsTo (unit digits' (toRat w)) (toRat w) x →
          result digits' w = result digits v := by
  have rounds := roundsTo_signedValue digits finite
  have read := valueOf?_shown (v == 0 || isPlain v.abs) (isNegative v) (rounded digits v)
  have tidy := isTidy_shown (v == 0 || isPlain v.abs) (isNegative v) (rounded_spec digits finite).1
  rw [← result_eq_shown digits finite] at read tidy
  generalize signedValue (isNegative v) (rounded digits v) = x at rounds read
  have zero : result digits v = "0" ↔ x = 0 := by
    constructor
    · intro shown
      rw [shown, valueOf?_zero.1] at read
      exact (Option.some.inj read).symm
    · rintro rfl
      exact result_of_roundsTo_zero finite rounds
  refine ⟨x, rounds, read, tidy, zero, ?_, fun digits' w finite' range rounds' =>
    result_congr finite finite' range rounds rounds'⟩
  intro shown
  have none : x = 0 := by
    rw [shown, valueOf?_zero.2] at read
    exact (Option.some.inj read).symm
  rw [zero.2 none] at shown
  exact absurd shown (by decide)

/-- A result that is rounded up to the next power of ten. -/
theorem result_spec_carry :
    (9.996e20 : Float).isFinite = true ∧ result 2 9.996e20 = "1e21" ∧
      ∃ x : ℚ, RoundsTo (unit 2 (toRat 9.996e20)) (toRat 9.996e20) x ∧
        valueOf? "1e21" = some x ∧ x ≠ 0 := by
  have finite : (9.996e20 : Float).isFinite = true := by decide +kernel
  have text : result 2 9.996e20 = "1e21" := by decide +kernel
  obtain ⟨x, rounds, read, -, zero, -⟩ := result_spec 2 9.996e20 finite
  rw [text] at read zero
  exact ⟨finite, text, x, rounds, read, mt zero.2 (by decide)⟩

end Display

end SciCalc
