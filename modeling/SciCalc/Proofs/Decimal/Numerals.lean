/-
# SciCalc.Proofs.Decimal.Numerals -- numerals denote what they were written for

A decimal is read as the double nearest to its value (`Decimal.toFloat_eq`), so
two decimals of one value are read alike.  Which texts are read as decimals is
said by their form (`Decimal.ofNumeral?_eq_some_iff`).  A decimal written with its
digits and a point is a numeral of the same value
(`Decimal.ofNumeral?_positional`), and the shortest decimal of a finite double is
read back as its magnitude (`Decimal.toFloat_shortest`), whether a short one was
found or the exact value had to do.
-/
import Mathlib
import SciCalc.Number
import SciCalc.Proofs.Binary64.Nearest

namespace SciCalc

set_option autoImplicit false

namespace Decimal

/-! ## Values -/

/-- The number that a decimal denotes. -/
def value (d : Decimal) : ℚ := d.coefficient * 10 ^ d.exponent

theorem value_eq_div (d : Decimal) :
    d.value = (d.coefficient * 10 ^ d.exponent.toNat : Nat) / (10 ^ (-d.exponent).toNat : Nat) := by
  rw [value, Binary64.zpow_eq_div]
  push_cast
  ring

theorem toFloat_def (d : Decimal) :
    d.toFloat = Binary64.nearest (d.coefficient * 10 ^ d.exponent.toNat)
      (10 ^ (-d.exponent).toNat) := rfl

/-- **A decimal is read as the double nearest to its value**, however that is written. -/
theorem toFloat_eq {d : Decimal} {num den : Nat} (pos : 0 < den) (same : d.value = num / den) :
    d.toFloat = Binary64.nearest num den := by
  rw [toFloat_def]
  exact Binary64.nearest_congr (Nat.pow_pos (by decide)) pos (d.value_eq_div.symm.trans same)

theorem toFloat_congr {d d' : Decimal} (same : d.value = d'.value) : d.toFloat = d'.toFloat := by
  rw [toFloat_def d']
  exact toFloat_eq (Nat.pow_pos (by decide)) (same.trans d'.value_eq_div)

theorem value_dropZeros (fuel c : Nat) (e : Int) : (dropZeros fuel c e).value = c * 10 ^ e := by
  induction fuel generalizing c e with
  | zero => rfl
  | succ fuel ih =>
      rw [dropZeros]
      split
      · rename_i divides
        have whole : (c : ℚ) = (c / 10 : Nat) * 10 := by
          exact_mod_cast (Nat.div_mul_cancel (Nat.dvd_of_mod_eq_zero divides)).symm
        rw [ih, whole, zpow_add_one₀ (by decide), mul_assoc, mul_comm (10 : ℚ)]
      · rfl

/-- Trailing zeros of a coefficient do not change the value. -/
theorem value_trimmed (d : Decimal) : d.trimmed.value = d.value := by
  unfold trimmed
  split
  · rename_i none
    simp [value, none]
  · exact value_dropZeros _ _ _

theorem exact_def (v : Float) :
    exact v = ⟨Binary64.numerator v * 5 ^ (-Binary64.exponent v).toNat,
      -((-Binary64.exponent v).toNat : Int)⟩ := rfl

theorem value_exact (v : Float) : (exact v).value = Binary64.magnitude v := by
  generalize places : (-Binary64.exponent v).toNat = p
  have tens : (10 : ℚ) ^ p = 2 ^ p * 5 ^ p := by
    rw [← mul_pow]
    norm_num
  rw [value, exact_def, Binary64.magnitude, Binary64.denominator_def, places, zpow_neg,
    zpow_natCast, tens]
  push_cast
  field_simp

/-! ## The shortest decimal -/

/-- **The shortest decimal of a finite double is read back** as its magnitude. -/
theorem toFloat_shortest {v : Float} (finite : v.isFinite = true) :
    (shortest v).toFloat = v.abs := by
  unfold shortest
  cases found : (List.range 17).findSome? (shortestWith? v) with
  | some d =>
      obtain ⟨n, -, short⟩ := List.exists_of_findSome?_eq_some found
      exact Float.toBits_inj.1 (toBits_of_shortestWith? v n d short)
  | none =>
      rw [Option.getD_none, ← Binary64.nearest_magnitude finite]
      refine toFloat_eq (Binary64.denominator_pos v) ?_
      rw [value_trimmed, value_exact]
      rfl

/-! ## Numerals -/

theorem natOfDigits_ofNat (n : Nat) : natOfDigits (Text.ofNat n) = n :=
  Nat.ofDigitChars_ten_toDigits

theorem isDigit_ofNat {n : Nat} {c : Char} (member : c ∈ Text.ofNat n) : c.isDigit = true :=
  Nat.isDigit_of_mem_toDigits (by decide) (by decide) member

theorem natOfDigits_append_zeros (t : Text) (n : Nat) :
    natOfDigits (t ++ List.replicate n '0') = natOfDigits t * 10 ^ n := by
  rw [natOfDigits, Nat.ofDigitChars_append, Nat.ofDigitChars_replicate_zero, Nat.mul_comm]
  rfl

theorem natOfDigits_zeros_append (n : Nat) (t : Text) :
    natOfDigits (List.replicate n '0' ++ t) = natOfDigits t := by
  rw [natOfDigits, Nat.ofDigitChars_append, Nat.ofDigitChars_replicate_zero, Nat.mul_zero]
  rfl

/-- Digits alone are a numeral. -/
theorem ofNumeral?_digits {whole : Text} (some : whole ≠ [])
    (digits : ∀ c ∈ whole, c.isDigit = true) :
    ofNumeral? whole = .some (ofDigits whole []) := by
  have taken : whole.takeWhile Char.isDigit = whole := List.takeWhile_eq_self_iff.2 digits
  have left : whole.dropWhile Char.isDigit = [] := List.dropWhile_eq_nil_iff.2 digits
  simp [ofNumeral?, taken, left, some]

/-- Digits, a point and digits are a numeral. -/
theorem ofNumeral?_point {whole fraction : Text} (some : whole ≠ [])
    (digits : ∀ c ∈ whole, c.isDigit = true) (some' : fraction ≠ [])
    (digits' : ∀ c ∈ fraction, c.isDigit = true) :
    ofNumeral? (whole ++ '.' :: fraction) = .some (ofDigits whole fraction) := by
  have point : Char.isDigit '.' = false := rfl
  have taken : (whole ++ '.' :: fraction).takeWhile Char.isDigit = whole := by
    rw [List.takeWhile_append_of_pos digits, List.takeWhile_cons_of_neg (by simp [point]),
      List.append_nil]
  have left : (whole ++ '.' :: fraction).dropWhile Char.isDigit = '.' :: fraction := by
    rw [List.dropWhile_append_of_pos digits, List.dropWhile_cons_of_neg (by simp [point])]
  simp only [ofNumeral?, taken, left]
  rw [if_pos]
  simpa [some, some'] using digits'

/-- A numeral and the decimal that it denotes: digits, or digits, a point and digits. -/
def Denotes (t : Text) (d : Decimal) : Prop :=
  ∃ whole fraction : Text, whole ≠ [] ∧ (∀ c ∈ whole, c.isDigit = true) ∧
    (∀ c ∈ fraction, c.isDigit = true) ∧
    (t = whole ∧ fraction = [] ∨ t = whole ++ '.' :: fraction ∧ fraction ≠ []) ∧
    d = ofDigits whole fraction

/-- **What is read as a decimal denotes it**, and nothing else denotes one. -/
theorem ofNumeral?_eq_some_iff {t : Text} {d : Decimal} :
    ofNumeral? t = some d ↔ Denotes t d := by
  constructor
  · intro read
    have parts := List.takeWhile_append_dropWhile (p := Char.isDigit) (l := t)
    have digits : ∀ c ∈ t.takeWhile Char.isDigit, c.isDigit = true :=
      fun c member => List.mem_takeWhile_imp member
    unfold ofNumeral? at read
    simp only at read
    split at read
    · rename_i nothing
      split at read
      · cases read
      · rename_i some
        rw [nothing, List.append_nil] at parts
        refine ⟨t.takeWhile Char.isDigit, [], by simpa using some, digits, nofun,
          .inl ⟨parts.symm, rfl⟩, (Option.some.inj read).symm⟩
    · rename_i c fraction rest
      split at read
      · rename_i shape
        simp only [Bool.and_eq_true, beq_iff_eq, Bool.not_eq_true', List.isEmpty_eq_false_iff,
          List.all_eq_true] at shape
        obtain ⟨⟨⟨rfl, some⟩, some'⟩, digits'⟩ := shape
        rw [rest] at parts
        exact ⟨t.takeWhile Char.isDigit, fraction, some, digits, digits',
          .inr ⟨parts.symm, some'⟩, (Option.some.inj read).symm⟩
      · cases read
  · rintro ⟨whole, fraction, some, digits, digits', shape, rfl⟩
    rcases shape with ⟨rfl, rfl⟩ | ⟨rfl, some'⟩
    · exact ofNumeral?_digits some digits
    · exact ofNumeral?_point some digits some' digits'

/-- **A decimal is written with digits and at most one point**, with its value and as many digits
behind the point as its exponent says. -/
theorem positional_spec (d : Decimal) :
    ∃ whole fraction : Text, whole ≠ [] ∧ (∀ c ∈ whole, c.isDigit = true) ∧
      (∀ c ∈ fraction, c.isDigit = true) ∧ (ofDigits whole fraction).value = d.value ∧
      fraction.length = (-d.exponent).toNat ∧
      (fraction = [] ∧ d.positional = whole ∨
        fraction ≠ [] ∧ d.positional = whole ++ '.' :: fraction) := by
  obtain ⟨c, e⟩ := d
  have some : Text.ofNat c ≠ [] := Nat.toDigits_ne_nil
  have zeros (n : Nat) : ∀ x ∈ List.replicate n '0', x.isDigit = true := by
    intro x member
    rw [List.eq_of_mem_replicate member]
    rfl
  unfold positional
  simp only
  split
  · rename_i high
    obtain ⟨n, rfl⟩ := Int.eq_ofNat_of_zero_le high
    refine ⟨Text.ofNat c ++ List.replicate n '0', [], by simp [some], ?_, by simp, ?_,
      by simp, .inl ⟨rfl, rfl⟩⟩
    · intro x member
      rcases List.mem_append.1 member with member | member
      · exact isDigit_ofNat member
      · exact zeros n x member
    · simp [value, ofDigits, natOfDigits_append_zeros, natOfDigits_ofNat]
  · rename_i low
    obtain ⟨n, rfl⟩ := Int.exists_eq_neg_ofNat (Int.le_of_lt (Int.not_le.1 low))
    rw [Int.neg_neg, Int.toNat_natCast]
    have positive : 0 < n := by omega
    -- with enough zeros before them the digits are cut so that `n` of them are left
    generalize padded : List.replicate (n + 1 - (Text.ofNat c).length) '0' ++ Text.ofNat c = digits
    have long : n < digits.length := by
      rw [← padded, List.length_append, List.length_replicate]
      omega
    have all : ∀ x ∈ digits, x.isDigit = true := by
      intro x member
      rw [← padded] at member
      rcases List.mem_append.1 member with member | member
      · exact zeros _ x member
      · exact isDigit_ofNat member
    have left : (digits.drop (digits.length - n)).length = n := by
      rw [List.length_drop]
      omega
    refine ⟨digits.take (digits.length - n), digits.drop (digits.length - n), ?_,
      fun x member => all x (List.mem_of_mem_take member),
      fun x member => all x (List.mem_of_mem_drop member), ?_, left, .inr ⟨?_, rfl⟩⟩
    · exact List.ne_nil_of_length_pos (by rw [List.length_take]; omega)
    · rw [ofDigits, List.take_append_drop, left, ← padded, natOfDigits_zeros_append,
        natOfDigits_ofNat]
    · exact List.ne_nil_of_length_pos (by omega)

theorem ofNumeral?_positional (d : Decimal) :
    ∃ d', ofNumeral? d.positional = some d' ∧ d'.value = d.value := by
  obtain ⟨whole, fraction, some, digits, digits', same, -, shape⟩ := d.positional_spec
  refine ⟨_, ?_, same⟩
  rcases shape with ⟨rfl, written⟩ | ⟨some', written⟩
  · rw [written, ofNumeral?_digits some digits]
  · rw [written, ofNumeral?_point some digits some' digits']

/-- Digits with a point among them or not are characters of numerals. -/
theorem isNumeral_of_mem {t whole fraction : Text} (digits : ∀ c ∈ whole, c.isDigit = true)
    (digits' : ∀ c ∈ fraction, c.isDigit = true)
    (shape : t = whole ∨ t = whole ++ '.' :: fraction) : ∀ c ∈ t, isNumeral c = true := by
  have some {x : Char} (digit : x.isDigit = true) : isNumeral x = true := by simp [isNumeral, digit]
  intro c member
  rcases shape with rfl | rfl
  · exact some (digits c member)
  · rcases List.mem_append.1 member with member | member
    · exact some (digits c member)
    · rcases List.mem_cons.1 member with rfl | member
      · rfl
      · exact some (digits' c member)

theorem isNumeral_of_mem_positional {d : Decimal} {c : Char} (member : c ∈ d.positional) :
    isNumeral c = true := by
  obtain ⟨whole, fraction, -, digits, digits', -, -, shape⟩ := d.positional_spec
  exact isNumeral_of_mem digits digits' (shape.imp And.right And.right) c member

theorem positional_ne_nil (d : Decimal) : d.positional ≠ [] := by
  obtain ⟨whole, fraction, some, -, -, -, -, shape⟩ := d.positional_spec
  rcases shape with ⟨-, written⟩ | ⟨-, written⟩
  · rwa [written]
  · simp [written]

end Decimal

/-- **A finite double is written with its sign** and what is made of its magnitude. -/
theorem Number.signed_of_isFinite {v : Float} (finite : v.isFinite = true)
    (write : Float → Text) :
    signed write v = if Binary64.isNegative v then '-' :: write v else write v := by
  have number := Binary64.isNaN_of_isFinite finite
  simp only [signed, number, finite, Bool.false_eq_true, if_false, if_true]

end SciCalc
