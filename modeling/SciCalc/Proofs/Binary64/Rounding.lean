/-
# SciCalc.Proofs.Binary64.Rounding -- how far rounding raises an exponent

An operation on doubles is carried out on their signs, significands and
exponents; the result is rounded and packed.  What is packed is a finite double
exactly when its exponent is at most 971 (`Binary64.isFinite_packed_iff`).

Rounding raises the exponent so far as the significand has too many bits, and
once more if it rounds up to a power of two.  So a result below 2 ^ 1023 is
rounded to what fits (`Binary64.fits_roundWithAccuracy`).  Such results have the
sum of numbers below 2 ^ 1022, the product with a number below a half and the
square root; a sum, a difference, a product and a quotient of any finite numbers
may be too large, but are no NaN.
-/
import Mathlib
import SciCalc.Proofs.Binary64.Bits
import SciCalc.Proofs.Binary64.Nearest

namespace SciCalc

set_option autoImplicit false

namespace Binary64

open Float.Model Float.Model.UnpackedFloat

/-! ## Packing and unpacking -/

/-- A double as its sign, its significand and its exponent. -/
def unpacked (v : Float) : UnpackedFloat :=
  UnpackedFloat.unpack Format.binary64 v.toBits.toBitVec

/-- The double that is packed from a rounded result. -/
def packed (u : UnpackedFloat) : Float := ⟨Float.Model.pack u⟩

/-- Whether a rounded result is packed to a finite double. -/
def Fits : UnpackedFloat → Prop
  | .zero _ => True
  | .finite _ _ e _ => e ≤ 971
  | _ => False

variable {u : UnpackedFloat} {v : Float}

/-- A sign, a significand and an exponent. -/
def ofParts (s : Sign) (m : Nat) (e : Int) : UnpackedFloat :=
  if h : m = 0 then .zero s else .finite s m e (Nat.pos_of_ne_zero h)

theorem finite_eq_ofParts (s : Sign) {m : Nat} (e : Int) (pos : 0 < m) :
    UnpackedFloat.finite s m e pos = ofParts s m e := by
  rw [ofParts, dif_neg pos.ne']

/-- **What a finite double is unpacked to**, in its fields. -/
theorem unpacked_eq (finite : v.isFinite = true) :
    unpacked v =
      ofParts (if isNegative v then .negative else .positive) (significand v) (exponent v) := by
  have top := (isFinite_iff v).1 finite
  rw [Ne, exponentField_eq_top_iff] at top
  have high := exponentField_eq v
  have low := fractionField_eq v
  have sign := sign_eq v
  rw [← sign]
  show UnpackedFloat.unpack Format.binary64 v.toBits.toBitVec = _
  unfold UnpackedFloat.unpack
  rw [if_neg top]
  split
  · rename_i least
    have subnormal : exponentField v = 0 := high.trans (congrArg BitVec.toNat least)
    rw [significand, exponent, if_pos subnormal, if_pos subnormal, low]
    split
    · rename_i none
      have zero : (fractionBits v.toBits.toBitVec).toNat = 0 := congrArg BitVec.toNat none
      rw [zero]
      rfl
    · rw [finite_eq_ofParts, least]
      rfl
  · rename_i normal
    have some : exponentField v ≠ 0 := by
      rw [high]
      intro zero
      exact normal (BitVec.eq_of_toNat_eq zero)
    rw [significand, exponent, if_neg some, if_neg some, finite_eq_ofParts, high, low,
      BitVec.toNat_append, ← Nat.shiftLeft_add_eq_or_of_lt (BitVec.isLt _), Nat.shiftLeft_eq]
    rfl

/-- The fields of a double that is packed from parts. -/
theorem fields_packed (s : Sign) (e : BitVec 11) (m : BitVec 52) (v : Float)
    (parts : v.toBits.toBitVec = packComponents Format.binary64 s e m) :
    exponentField v = e.toNat ∧ fractionField v = m.toNat := by
  rw [exponentField_eq, fractionField_eq, parts]
  exact ⟨congrArg BitVec.toNat unpackExponent_packComponents,
    congrArg BitVec.toNat unpackMantissa_packComponents⟩

/-- The fields of a packed finite result: those of the infinity where the exponent is too great. -/
theorem exponentField_packed_finite (s : Sign) (m : Nat) (e : Int) (pos : 0 < m) :
    e ≤ 971 ∧ exponentField (packed (.finite s m e pos)) < 2047 ∨
      971 < e ∧ exponentField (packed (.finite s m e pos)) = 2047 ∧
        fractionField (packed (.finite s m e pos)) = 0 := by
  have bits : (packed (.finite s m e pos)).toBits.toBitVec =
      UnpackedFloat.pack Format.binary64 (.finite s m e pos) := rfl
  unfold UnpackedFloat.pack at bits
  simp only at bits
  split at bits
  · rename_i large
    have many : 2 ^ 11 ≤ (e + (1023 : Nat) + (52 : Nat)).toNat + 1 := large
    exact .inr ⟨by omega, fields_packed s (-1#11) 0 _ bits⟩
  · rename_i within
    have few : ¬ 2 ^ 11 ≤ (e + (1023 : Nat) + (52 : Nat)).toNat + 1 := within
    refine .inl ⟨by omega, ?_⟩
    split at bits
    · rw [(fields_packed s _ _ _ bits).1, BitVec.toNat_ofNat]
      show (e + (1023 : Nat) + (52 : Nat)).toNat % 2 ^ 11 < 2047
      omega
    · rw [(fields_packed s _ _ _ bits).1]
      decide

theorem isFinite_packed_iff : (packed u).isFinite = true ↔ Fits u := by
  rw [isFinite_iff]
  cases u with
  | notANumber => exact iff_of_false (fun top => top rfl) id
  | infinity s =>
      have fields := fields_packed s (-1#11) 0 (packed (.infinity s)) rfl
      exact iff_of_false (fun top => top fields.1) id
  | zero s =>
      have fields := fields_packed s 0#11 0 (packed (.zero s)) rfl
      exact iff_of_true (fun top => by rw [fields.1] at top; cases top) trivial
  | finite s m e pos =>
      show _ ↔ e ≤ 971
      rcases exponentField_packed_finite s m e pos with ⟨low, under⟩ | ⟨high, top, -⟩ <;> omega

/-- What is no NaN is packed to none. -/
theorem isNaN_packed (number : u.isNaN = false) : (packed u).isNaN = false := by
  rw [Bool.eq_false_iff, Ne, isNaN_iff]
  rintro ⟨top, some⟩
  cases u with
  | notANumber => cases number
  | infinity s => exact some (fields_packed s (-1#11) 0 (packed (.infinity s)) rfl).2
  | zero s => exact some (fields_packed s 0#11 0 (packed (.zero s)) rfl).2
  | finite s m e pos =>
      rcases exponentField_packed_finite s m e pos with ⟨low, under⟩ | ⟨high, -, none⟩
      · omega
      · exact some none

/-- A double that is no NaN and no infinity is finite. -/
theorem isFinite_of_number (number : v.isNaN = false) (noInf : v.isInf = false) :
    v.isFinite = true := by
  change (unpacked v).isNaN = false at number
  change (unpacked v).isInf = false at noInf
  show (unpacked v).isFinite = true
  generalize unpacked v = u at number noInf
  cases u with
  | notANumber => cases number
  | infinity s => cases noInf
  | _ => rfl

/-! ## Rounding -/

/-- A mantissa that is shifted to the right is divided by a power of two. -/
theorem mantissa_shiftRight (em : ExtendedMantissa) (n : Nat) :
    (em >>> n).mantissa = em.mantissa / 2 ^ n := by
  induction n with
  | zero => exact (Nat.div_one _).symm
  | succ n ih =>
      show (em >>> n).mantissa / 2 = _
      rw [ih, Nat.div_div_eq_div_mul, Nat.pow_succ]

theorem roundedMantissa_le (em : ExtendedMantissa) : em.roundedMantissa ≤ em.mantissa + 1 := by
  have parity := Nat.mod_lt em.mantissa (by decide : 0 < 2)
  unfold ExtendedMantissa.roundedMantissa Accuracy.roundToNearestEven
  split <;> omega

/-- The exponent that a significand is shifted to. -/
def shifted (m : Nat) (e : Int) : Int := max e (max (totalExponent m e - 53) (-1074))

theorem shiftToTargetExponent_spec (m : Nat) (e : Int) (accuracy : Accuracy) :
    (shiftToTargetExponent Format.binary64 m e accuracy).1.mantissa =
        m / 2 ^ (shifted m e - e).toNat ∧
      (shiftToTargetExponent Format.binary64 m e accuracy).2 = shifted m e := by
  have target : Format.binary64.targetExponent (totalExponent m e) =
      max (totalExponent m e - 53) (-1074) := rfl
  have amount : (Format.binary64.targetExponent (totalExponent m e) - e).toNat =
      (shifted m e - e).toNat := by
    rw [target, shifted]
    omega
  have whole : (ExtendedMantissa.ofMantissaAndAccuracy m accuracy).mantissa = m := by
    unfold ExtendedMantissa.ofMantissaAndAccuracy
    split <;> rfl
  constructor
  · refine (mantissa_shiftRight (.ofMantissaAndAccuracy m accuracy) _).trans ?_
    rw [whole, amount]
  · show e + (Format.binary64.targetExponent (totalExponent m e) - e).toNat = _
    rw [amount, shifted]
    omega

/-- **The parts of a rounded result**: the exponent is raised twice, the second time for what the
rounded significand is. -/
theorem roundWithAccuracy_eq (s : Sign) (m : Nat) (e : Int) (accuracy : Accuracy) :
    ∃ r m', r ≤ m / 2 ^ (shifted m e - e).toNat + 1 ∧
      roundWithAccuracy Format.binary64 s m e accuracy =
        ofParts s m' (shifted r (shifted m e)) := by
  obtain ⟨mantissa, exponent⟩ := shiftToTargetExponent_spec m e accuracy
  let r := (shiftToTargetExponent Format.binary64 m e accuracy).1.roundedMantissa
  have close := roundedMantissa_le (shiftToTargetExponent Format.binary64 m e accuracy).1
  rw [mantissa] at close
  refine ⟨r, (shiftToTargetExponent Format.binary64 r (shifted m e) .exact).1.mantissa, close, ?_⟩
  rw [← (shiftToTargetExponent_spec r (shifted m e) .exact).2, ← exponent]
  rfl

/-- A rounded result is a number. -/
theorem isNaN_roundWithAccuracy (s : Sign) (m : Nat) (e : Int) (accuracy : Accuracy) :
    (roundWithAccuracy Format.binary64 s m e accuracy).isNaN = false := by
  obtain ⟨r, m', -, parts⟩ := roundWithAccuracy_eq s m e accuracy
  rw [parts, ofParts]
  split <;> rfl

theorem fits_ofParts (s : Sign) (m : Nat) {e : Int} (low : e ≤ 971) : Fits (ofParts s m e) := by
  unfold ofParts
  split
  · trivial
  · exact low

/-- What rounds up has at most one bit more. -/
theorem log2_rounded_le {m r k : Nat} (close : r ≤ m / 2 ^ k + 1) :
    r.log2 = 0 ∨ r.log2 + k ≤ m.log2 + 1 := by
  have size := Nat.lt_log2_self (n := m)
  by_cases short : m.log2 + 1 < k
  · have none : m / 2 ^ k = 0 := by
      rw [Nat.div_eq_zero_iff_lt (Nat.two_pow_pos k)]
      exact size.trans (Nat.pow_lt_pow_right (by decide) short)
    have small : r < 2 := by omega
    left
    interval_cases r <;> rfl
  · right
    have whole : m / 2 ^ k < 2 ^ (m.log2 + 1 - k) := by
      rw [Nat.div_lt_iff_lt_mul (Nat.two_pow_pos k), ← Nat.pow_add]
      exact size.trans_le (Nat.pow_le_pow_right (by decide) (by omega))
    have bound : r ≤ 2 ^ (m.log2 + 1 - k) := by omega
    rcases Nat.eq_zero_or_pos r with none | some
    · rw [none, Nat.log2_zero]
      omega
    · have exact := (Nat.pow_le_pow_iff_right (by decide : 1 < 2)).1
        ((Nat.log2_self_le some.ne').trans bound)
      omega

/-- **A result below 2 ^ 1023 is rounded to what fits.** -/
theorem fits_roundWithAccuracy (s : Sign) {m : Nat} {e : Int} (accuracy : Accuracy)
    (low : e ≤ 971) (small : totalExponent m e ≤ 1023) :
    Fits (roundWithAccuracy Format.binary64 s m e accuracy) := by
  obtain ⟨r, m', close, parts⟩ := roundWithAccuracy_eq s m e accuracy
  rw [parts]
  apply fits_ofParts
  have bits := log2_rounded_le close
  unfold shifted totalExponent at *
  omega

/-- A shift to the left adds its length to the logarithm. -/
theorem log2_shiftLeft_le (m k : Nat) : (m <<< k).log2 ≤ m.log2 + k := by
  rcases Nat.eq_zero_or_pos m with none | some
  · rw [none, Nat.zero_shiftLeft]
    omega
  · have small : m * 2 ^ k < 2 ^ (m.log2 + k + 1) := by
      have size := Nat.mul_lt_mul_of_pos_right (Nat.lt_log2_self (n := m)) (Nat.two_pow_pos k)
      rwa [← Nat.pow_add, Nat.add_right_comm] at size
    rw [Nat.shiftLeft_eq]
    have nonzero : m * 2 ^ k ≠ 0 := Nat.mul_ne_zero some.ne' (Nat.two_pow_pos k).ne'
    exact Nat.le_of_lt_succ ((Nat.log2_lt nonzero).2 small)

theorem fits_round (s : Sign) {m : Nat} {e : Int} (small : totalExponent m e ≤ 1023) :
    Fits (UnpackedFloat.round Format.binary64 s m e) := by
  have target : Format.binary64.targetExponent (totalExponent m e) =
      max (totalExponent m e - 53) (-1074) := rfl
  unfold UnpackedFloat.round decreaseExponent
  simp only
  generalize Format.binary64.targetExponent (totalExponent m e) = t at target
  have longer := log2_shiftLeft_le m (e - t).toNat
  apply fits_roundWithAccuracy
  · omega
  · unfold totalExponent at *
    omega

theorem fits_normalize {n e : Int} (s : Sign) (small : totalExponent n.natAbs e ≤ 1023) :
    Fits (UnpackedFloat.normalize Format.binary64 n e s) := by
  unfold UnpackedFloat.normalize
  split
  · rename_i below
    have size : (-n).toNat = n.natAbs := by
      have := Int.compare_eq_lt.1 below
      omega
    rw [size]
    exact fits_round _ small
  · trivial
  · rename_i above
    have size : n.toNat = n.natAbs := by
      have := Int.compare_eq_gt.1 above
      omega
    rw [size]
    exact fits_round _ small

theorem isNaN_normalize (n e : Int) (s : Sign) :
    (UnpackedFloat.normalize Format.binary64 n e s).isNaN = false := by
  unfold UnpackedFloat.normalize
  split
  · exact isNaN_roundWithAccuracy _ _ _ _
  · rfl
  · exact isNaN_roundWithAccuracy _ _ _ _

/-! ## Operations on finite doubles -/

/-- A zero, or a significand of at most fifty-three bits with an exponent up to `top`. -/
inductive Within (top : Int) : UnpackedFloat → Prop
  | zero (s : Sign) : Within top (.zero s)
  | finite (s : Sign) {m : Nat} {e : Int} (pos : 0 < m) (short : m < 2 ^ 53) (low : e ≤ top) :
      Within top (.finite s m e pos)

theorem within_unpacked (finite : v.isFinite = true) {top : Int} (low : exponent v ≤ top) :
    Within top (unpacked v) := by
  have short : significand v < 2 ^ 53 := by
    have bound := fractionField_lt v
    rcases significand_spec v with ⟨-, stored, -⟩ | ⟨-, stored, -⟩ <;> omega
  rw [unpacked_eq finite, ofParts]
  split
  · exact .zero _
  · exact .finite _ _ short low

/-- A finite double has an exponent of at most 971. -/
theorem within_of_isFinite (finite : v.isFinite = true) : Within 971 (unpacked v) := by
  apply within_unpacked finite
  have top := (isFinite_iff v).1 finite
  have bound := exponentField_lt v
  rcases significand_spec v with ⟨-, -, stored⟩ | ⟨-, -, stored⟩ <;> omega

section Numbers

variable {x y : UnpackedFloat} {top top' : Int}

theorem isNaN_add_of_within (first : Within top x) (second : Within top' y) :
    (UnpackedFloat.add Format.binary64 x y).isNaN = false := by
  cases first with
  | zero s =>
      cases second with
      | zero s' =>
          show (if s == s' then UnpackedFloat.zero s else .zero .positive).isNaN = false
          split <;> rfl
      | finite s' pos' short' low' => rfl
  | finite s pos short low =>
      cases second with
      | zero s' => rfl
      | finite s' pos' short' low' => exact isNaN_normalize _ _ _

theorem isNaN_sub_of_within (first : Within top x) (second : Within top' y) :
    (UnpackedFloat.sub Format.binary64 x y).isNaN = false := by
  cases first with
  | zero s =>
      cases second with
      | zero s' =>
          show (if s == -s' then UnpackedFloat.zero s else .zero .positive).isNaN = false
          split <;> rfl
      | finite s' pos' short' low' => rfl
  | finite s pos short low =>
      cases second with
      | zero s' => rfl
      | finite s' pos' short' low' => exact isNaN_normalize _ _ _

theorem isNaN_mul_of_within (first : Within top x) (second : Within top' y) :
    (UnpackedFloat.mul Format.binary64 x y).isNaN = false := by
  cases first with
  | zero s => cases second <;> rfl
  | finite s pos short low =>
      cases second with
      | zero s' => rfl
      | finite s' pos' short' low' => exact isNaN_roundWithAccuracy _ _ _ _

/-- Only a divisor of zero makes the quotient of a number and a finite one a NaN. -/
theorem isNaN_div_of_within (number : x.isNaN = false) (second : Within top y)
    (some : y.beq (.zero .positive) = false) :
    (UnpackedFloat.div Format.binary64 x y).isNaN = false := by
  cases second with
  | zero s' => cases some
  | finite s' pos' short' low' =>
      cases x with
      | notANumber => cases number
      | infinity s => rfl
      | zero s => rfl
      | finite s m e pos => exact isNaN_roundWithAccuracy _ _ _ _

/-- A significand shifted to a lower exponent makes a number of the same size. -/
theorem shiftLeft_lt {n : Nat} {e least : Int} (short : n < 2 ^ 53) (low : e ≤ 969)
    (lower : least ≤ e) : n <<< (e - least).toNat < 2 ^ (1022 - least).toNat := by
  rw [Nat.shiftLeft_eq]
  calc n * 2 ^ (e - least).toNat
      < 2 ^ 53 * 2 ^ (e - least).toNat := Nat.mul_lt_mul_of_pos_right short (Nat.two_pow_pos _)
    _ = 2 ^ (53 + (e - least).toNat) := (Nat.pow_add ..).symm
    _ ≤ 2 ^ (1022 - least).toNat := Nat.pow_le_pow_right (by decide) (by omega)

theorem natAbs_apply_add_le (s s' : Sign) (m m' : Nat) :
    (s.apply m + s'.apply m').natAbs ≤ m + m' := by
  cases s <;> cases s' <;> simp only [Sign.apply] <;> omega

/-- Two numbers below 2 ^ 1022 have a finite sum. -/
theorem fits_add (first : Within 969 x) (second : Within 969 y) :
    Fits (UnpackedFloat.add Format.binary64 x y) := by
  cases first with
  | zero s =>
      cases second with
      | zero s' =>
          show Fits (if s == s' then UnpackedFloat.zero s else .zero .positive)
          split <;> trivial
      | finite s' pos' short' low' => exact low'.trans (by decide)
  | @finite s m e pos short low =>
      cases second with
      | zero s' => exact low.trans (by decide)
      | @finite s' m' e' pos' short' low' =>
          -- both significands at the lesser exponent
          have size := shiftLeft_lt short low (Int.min_le_left e e')
          have size' := shiftLeft_lt short' low' (Int.min_le_right e e')
          apply fits_normalize
          generalize m <<< (e - min e e').toNat = p at size
          generalize m' <<< (e' - min e e').toNat = p' at size'
          have total : (s.apply p + s'.apply p').natAbs < 2 ^ (1023 - min e e').toNat := by
            have double : 2 ^ (1023 - min e e').toNat = 2 * 2 ^ (1022 - min e e').toNat := by
              rw [← Nat.pow_succ']
              congr 1
              omega
            have sizes := natAbs_apply_add_le s s' p p'
            omega
          unfold totalExponent
          rcases Nat.eq_zero_or_pos (s.apply p + s'.apply p').natAbs with none | some
          · rw [none, Nat.log2_zero]
            omega
          · have bits := (Nat.log2_lt some.ne').2 total
            omega

/-- A finite number times one below a half is finite. -/
theorem fits_mul (first : Within 971 x) (second : Within (-54) y) :
    Fits (UnpackedFloat.mul Format.binary64 x y) := by
  cases first with
  | zero s => cases second <;> trivial
  | @finite s m e pos short low =>
      cases second with
      | zero s' => trivial
      | @finite s' m' e' pos' short' low' =>
          apply fits_roundWithAccuracy
          · omega
          · have product : m * m' < 2 ^ 53 * 2 ^ 53 := Nat.mul_lt_mul'' short short'
            rw [← Nat.pow_add] at product
            have bits := (Nat.log2_lt (Nat.mul_pos pos pos').ne').2 product
            unfold totalExponent
            omega

/-- A quotient has as many bits as its parts say, or one less. -/
theorem log2_div_le {m d : Nat} (pos : 0 < d) :
    (m / d).log2 = 0 ∨ (m / d).log2 + d.log2 ≤ m.log2 := by
  by_cases none : m / d = 0
  · rw [none]
    exact .inl Nat.log2_zero
  · right
    have power : 2 ^ ((m / d).log2 + d.log2) ≤ m := by
      rw [Nat.pow_add]
      calc 2 ^ (m / d).log2 * 2 ^ d.log2 ≤ m / d * d :=
            Nat.mul_le_mul (Nat.log2_self_le none) (Nat.log2_self_le pos.ne')
        _ ≤ m := Nat.div_mul_le_self m d
    have some : m ≠ 0 := by
      rintro rfl
      exact none (Nat.zero_div d)
    exact (Nat.le_log2 some).2 power

/-- A quotient of numbers not too far apart is finite. -/
theorem fits_div (s s' : Sign) {m m' : Nat} {e e' : Int} (pos : 0 < m) (pos' : 0 < m')
    (near : totalExponent m e - totalExponent m' e' ≤ 1022) :
    Fits (UnpackedFloat.div Format.binary64 (.finite s m e pos) (.finite s' m' e' pos')) := by
  let t := min (e - e') (max (totalExponent m e - totalExponent m' e' - 53) (-1074))
  have bits := log2_div_le (m := m <<< (e - e' - t).toNat) pos'
  have longer := log2_shiftLeft_le m (e - e' - t).toNat
  have low : t ≤ 971 := by omega
  have lower : t ≤ e - e' := Int.min_le_left _ _
  apply fits_roundWithAccuracy
  · exact low
  · show totalExponent (m <<< (e - e' - t).toNat / m') t ≤ 1023
    unfold totalExponent at *
    omega

/-- A square root has half as many bits. -/
theorem log2_sqrt_le (n : Nat) : 2 * (Nat.sqrt n).log2 ≤ n.log2 := by
  rcases Nat.eq_zero_or_pos (Nat.sqrt n) with none | some
  · rw [none]
    exact Nat.zero_le _
  · have low := Nat.log2_self_le some.ne'
    have power : 2 ^ (2 * (Nat.sqrt n).log2) < 2 ^ (n.log2 + 1) := by
      calc 2 ^ (2 * (Nat.sqrt n).log2)
          = 2 ^ (Nat.sqrt n).log2 * 2 ^ (Nat.sqrt n).log2 := by rw [← Nat.pow_add, Nat.two_mul]
        _ ≤ Nat.sqrt n * Nat.sqrt n := Nat.mul_le_mul low low
        _ ≤ n := Nat.sqrt_le n
        _ < 2 ^ (n.log2 + 1) := Nat.lt_log2_self
    exact Nat.le_of_lt_succ ((Nat.pow_lt_pow_iff_right (by decide : 1 < 2)).1 power)

/-- The square root of a number that is not below zero is finite. -/
theorem fits_sqrt (within : Within 971 x) (notBelow : x.lt (.zero .positive) = false) :
    Fits (UnpackedFloat.sqrt Format.binary64 x) := by
  cases within with
  | zero s => trivial
  | @finite s m e pos short low =>
      cases s with
      | negative => cases notBelow
      | positive =>
          let t := min (e.ediv 2) (Format.binary64.targetExponent ((totalExponent m e + 1).ediv 2))
          have half : t ≤ e / 2 := Int.min_le_left _ _
          apply fits_roundWithAccuracy
          · show t ≤ 971
            omega
          · show totalExponent (Nat.sqrt (m <<< (e - 2 * t).toNat)) t ≤ 1023
            generalize t = t at half
            have bits : m.log2 ≤ 52 := Nat.le_of_lt_succ ((Nat.log2_lt pos.ne').2 short)
            have longer := log2_shiftLeft_le m (e - 2 * t).toNat
            have root := log2_sqrt_le (m <<< (e - 2 * t).toNat)
            unfold totalExponent
            omega

end Numbers

end Binary64

end SciCalc
