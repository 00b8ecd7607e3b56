/-
# SciCalc.Proofs.Binary64.Bits -- doubles by their bit patterns

A double is its bit pattern, and the pattern is the sign bit, the eleven bits of
the exponent and the fifty-two of the fraction (`Binary64.toNat_toBits`).  Which
doubles are finite, what the sign operations do and which patterns `Float.ofBits`
keeps are said here in these three fields, so that nothing further down looks
into the packing of a double.
-/
import Mathlib
import SciCalc.Binary64

namespace SciCalc

set_option autoImplicit false

namespace Binary64

open Float.Model Float.Model.UnpackedFloat

/-! ## The packing of a double -/

/-- A change of sign of whatever has one. -/
def mapSign (change : Sign → Sign) : UnpackedFloat → UnpackedFloat
  | .notANumber => .notANumber
  | .infinity s => .infinity (change s)
  | .zero s => .zero (change s)
  | .finite s m e pos => .finite (change s) m e pos

theorem mapSign_neg (u : UnpackedFloat) : mapSign Neg.neg u = u.neg := by cases u <;> rfl

theorem mapSign_abs (u : UnpackedFloat) : mapSign (fun _ => .positive) u = u.abs := by
  cases u <;> rfl

/-- The sign bit of a pattern. -/
abbrev signBit (b : BitVec 64) : BitVec 1 := @unpackSign Format.binary64 b

/-- The bits of the exponent. -/
abbrev exponentBits (b : BitVec 64) : BitVec 11 := @unpackExponent Format.binary64 b

/-- The bits of the fraction. -/
abbrev fractionBits (b : BitVec 64) : BitVec 52 := @unpackMantissa Format.binary64 b

section Packing

variable (b : BitVec 64) (s : Sign) (e : BitVec 11) (m : BitVec 52)

theorem toNat_fractionBits : (fractionBits b).toNat = b.toNat % 2 ^ 52 := by
  simp [fractionBits, unpackMantissa]

theorem toNat_exponentBits : (exponentBits b).toNat = b.toNat / 2 ^ 52 % 2 ^ 11 := by
  simp [exponentBits, unpackExponent, Nat.shiftRight_eq_div_pow]

theorem toNat_signBit : (signBit b).toNat = b.toNat / 2 ^ 63 := by
  have bound := b.isLt
  simp [signBit, unpackSign, Nat.shiftRight_eq_div_pow]
  omega

theorem toNat_packComponents :
    (packComponents Format.binary64 s e m).toNat =
      s.toBitVec.toNat * 2 ^ 63 + e.toNat * 2 ^ 52 + m.toNat := by
  unfold packComponents
  rw [BitVec.toNat_append, BitVec.toNat_append, ← Nat.shiftLeft_add_eq_or_of_lt m.isLt,
    ← Nat.shiftLeft_add_eq_or_of_lt e.isLt, Nat.shiftLeft_eq, Nat.shiftLeft_eq]
  omega

/-- A change of sign changes the sign bit only. -/
theorem mapSign_unpack (change : Sign → Sign) :
    mapSign change (unpack Format.binary64 (packComponents Format.binary64 s e m)) =
      unpack Format.binary64 (packComponents Format.binary64 (change s) e m) := by
  unfold UnpackedFloat.unpack
  simp only [unpackMantissa_packComponents, unpackExponent_packComponents,
    unpackSign_packComponents, Sign.ofBitVec_toBitVec]
  by_cases top : e = -1#11
  · rw [if_pos top, if_pos top]
    split <;> rfl
  · rw [if_neg top, if_neg top]
    split
    · split <;> rfl
    · rfl

/-- **A pattern that is no NaN is what its parts are packed to**, with the sign changed or not. -/
theorem pack_mapSign_unpack (change : Sign → Sign)
    (number : exponentBits b = -1#11 → fractionBits b = 0#52) :
    pack Format.binary64 (mapSign change (unpack Format.binary64 b)) =
      packComponents Format.binary64 (change (Sign.ofBitVec (signBit b))) (exponentBits b)
        (fractionBits b) := by
  have parts := @packComponents_unpackSign_unpackExponent_unpackMantissa Format.binary64 b
  have changed :=
    mapSign_unpack (Sign.ofBitVec (signBit b)) (exponentBits b) (fractionBits b) change
  rw [parts] at changed
  rw [changed, pack_unpack, if_neg]
  simpa [isNaNBits] using number

end Packing

/-! ## The fields of a double -/

theorem isNegative_def (v : Float) : isNegative v = decide (2 ^ 63 ≤ v.toBits.toNat) := rfl

theorem exponentField_def (v : Float) :
    exponentField v = v.toBits.toNat / 2 ^ 52 % 2 ^ 11 := rfl

theorem fractionField_def (v : Float) : fractionField v = v.toBits.toNat % 2 ^ 52 := rfl

theorem exponentField_eq (v : Float) :
    exponentField v = (exponentBits v.toBits.toBitVec).toNat :=
  (toNat_exponentBits v.toBits.toBitVec).symm

theorem fractionField_eq (v : Float) :
    fractionField v = (fractionBits v.toBits.toBitVec).toNat :=
  (toNat_fractionBits v.toBits.toBitVec).symm

theorem exponentField_lt (v : Float) : exponentField v < 2 ^ 11 := Nat.mod_lt _ (by decide)

theorem fractionField_lt (v : Float) : fractionField v < 2 ^ 52 := Nat.mod_lt _ (by decide)

/-- The part of a pattern that the sign bit is. -/
def signPart (negative : Bool) : Nat := if negative then 2 ^ 63 else 0

/-- **The pattern of a double from its fields.** -/
theorem toNat_toBits (v : Float) :
    v.toBits.toNat = signPart (isNegative v) + exponentField v * 2 ^ 52 + fractionField v := by
  have bound := v.toBits.toNat_lt
  rw [signPart, isNegative_def, exponentField_def, fractionField_def]
  by_cases negative : 2 ^ 63 ≤ v.toBits.toNat
  · simp only [negative, decide_true, if_true]
    omega
  · simp only [negative, decide_false, Bool.false_eq_true, if_false]
    omega

theorem exponentField_eq_top_iff (v : Float) :
    exponentField v = 2047 ↔ exponentBits v.toBits.toBitVec = -1#11 := by
  rw [exponentField_eq]
  constructor
  · intro same
    exact BitVec.eq_of_toNat_eq same
  · intro same
    rw [same]
    rfl

theorem fractionField_eq_zero_iff (v : Float) :
    fractionField v = 0 ↔ fractionBits v.toBits.toBitVec = 0#52 := by
  rw [fractionField_eq]
  constructor
  · intro same
    exact BitVec.eq_of_toNat_eq same
  · intro same
    rw [same]
    rfl

/-- A double is finite unless its exponent is the greatest. -/
theorem isFinite_iff (v : Float) : v.isFinite = true ↔ exponentField v ≠ 2047 := by
  rw [Ne, exponentField_eq_top_iff]
  show (UnpackedFloat.unpack Format.binary64 v.toBits.toBitVec).isFinite = true ↔ _
  unfold UnpackedFloat.unpack
  by_cases top : exponentBits v.toBits.toBitVec = -1#11
  · rw [if_pos top]
    refine iff_of_false ?_ fun apart => apart top
    split <;> exact Bool.false_ne_true
  · rw [if_neg top]
    refine iff_of_true ?_ top
    split
    · split <;> rfl
    · rfl

/-- A NaN has the greatest exponent and some fraction. -/
theorem isNaN_iff (v : Float) :
    v.isNaN = true ↔ exponentField v = 2047 ∧ fractionField v ≠ 0 := by
  rw [Ne, exponentField_eq_top_iff, fractionField_eq_zero_iff]
  show (UnpackedFloat.unpack Format.binary64 v.toBits.toBitVec).isNaN = true ↔ _
  unfold UnpackedFloat.unpack
  by_cases top : exponentBits v.toBits.toBitVec = -1#11
  · rw [if_pos top]
    by_cases none : fractionBits v.toBits.toBitVec = 0#52
    · rw [if_pos none]
      exact iff_of_false Bool.false_ne_true fun some => some.2 none
    · rw [if_neg none]
      exact iff_of_true rfl ⟨top, none⟩
  · rw [if_neg top]
    refine iff_of_false ?_ fun nan => top nan.1
    split
    · split <;> exact Bool.false_ne_true
    · exact Bool.false_ne_true

theorem isNaN_of_isFinite {v : Float} (finite : v.isFinite = true) : v.isNaN = false := by
  rw [Bool.eq_false_iff, Ne, isNaN_iff]
  exact fun nan => (isFinite_iff v).1 finite nan.1

/-! ## Signs and patterns -/

theorem signPart_ofBitVec (s : Sign) :
    s.toBitVec.toNat * 2 ^ 63 = signPart (s == .negative) := by
  cases s <;> rfl

/-- The pattern of a double whose sign is changed. -/
theorem toNat_mapSign {v : Float} (number : v.isNaN = false) (change : Sign → Sign) :
    (UnpackedFloat.pack Format.binary64
        (mapSign change (UnpackedFloat.unpack Format.binary64 v.toBits.toBitVec))).toNat =
      signPart (change (Sign.ofBitVec (signBit v.toBits.toBitVec)) ==
        .negative) + exponentField v * 2 ^ 52 + fractionField v := by
  have noNaN : exponentBits v.toBits.toBitVec = -1#11 →
      fractionBits v.toBits.toBitVec = 0#52 := by
    rw [← exponentField_eq_top_iff, ← fractionField_eq_zero_iff]
    intro top
    refine Decidable.byContradiction fun some => ?_
    rw [(isNaN_iff v).2 ⟨top, some⟩] at number
    cases number
  rw [pack_mapSign_unpack _ change noNaN, toNat_packComponents, signPart_ofBitVec,
    exponentField_eq, fractionField_eq]

theorem sign_eq (v : Float) :
    Sign.ofBitVec (signBit v.toBits.toBitVec) =
      if isNegative v then .negative else .positive := by
  have high := toNat_signBit v.toBits.toBitVec
  have bound := v.toBits.toNat_lt
  rw [isNegative_def]
  by_cases negative : 2 ^ 63 ≤ v.toBits.toNat
  · have set : signBit v.toBits.toBitVec = 1#1 := by
      apply BitVec.eq_of_toNat_eq
      rw [high]
      show v.toBits.toNat / 2 ^ 63 = 1
      omega
    rw [set, decide_eq_true negative]
    rfl
  · have clear : signBit v.toBits.toBitVec = 0#1 := by
      apply BitVec.eq_of_toNat_eq
      rw [high]
      show v.toBits.toNat / 2 ^ 63 = 0
      omega
    rw [clear, decide_eq_false negative]
    rfl

/-- **A negation changes the sign bit only.** -/
theorem toNat_toBits_neg {v : Float} (number : v.isNaN = false) :
    (-v).toBits.toNat = signPart (!isNegative v) + exponentField v * 2 ^ 52 + fractionField v := by
  have changed := toNat_mapSign number Neg.neg
  rw [mapSign_neg, sign_eq] at changed
  refine changed.trans ?_
  cases isNegative v <;> rfl

/-- **An absolute value clears the sign bit.** -/
theorem toNat_toBits_abs {v : Float} (number : v.isNaN = false) :
    v.abs.toBits.toNat = exponentField v * 2 ^ 52 + fractionField v := by
  have changed := toNat_mapSign number fun _ => .positive
  rw [mapSign_abs] at changed
  refine changed.trans ?_
  rw [show (Sign.positive == Sign.negative) = false from rfl, signPart, if_neg Bool.false_ne_true,
    Nat.zero_add]

theorem fields_abs {v : Float} (number : v.isNaN = false) :
    isNegative v.abs = false ∧ exponentField v.abs = exponentField v ∧
      fractionField v.abs = fractionField v := by
  have pattern := toNat_toBits_abs number
  have high := exponentField_lt v
  have low := fractionField_lt v
  rw [isNegative_def, exponentField_def v.abs, fractionField_def v.abs, pattern]
  exact ⟨decide_eq_false (by omega), by omega, by omega⟩

/-- Negation changes the sign alone. -/
theorem fields_neg {v : Float} (number : v.isNaN = false) :
    isNegative (-v) = !isNegative v ∧ exponentField (-v) = exponentField v ∧
      fractionField (-v) = fractionField v := by
  have pattern := toNat_toBits_neg number
  have high := exponentField_lt v
  have low := fractionField_lt v
  have sign : signPart true = 2 ^ 63 ∧ signPart false = 0 := ⟨rfl, rfl⟩
  rw [isNegative_def (-v), exponentField_def (-v), fractionField_def (-v), pattern]
  cases isNegative v with
  | true =>
      rw [Bool.not_true, sign.2]
      exact ⟨decide_eq_false (by omega), by omega, by omega⟩
  | false =>
      rw [Bool.not_false, sign.1]
      exact ⟨decide_eq_true (by omega), by omega, by omega⟩

theorem isFinite_neg {v : Float} (finite : v.isFinite = true) : (-v).isFinite = true := by
  rw [isFinite_iff, (fields_neg (isNaN_of_isFinite finite)).2.1]
  exact (isFinite_iff v).1 finite

theorem isFinite_abs {v : Float} (finite : v.isFinite = true) : v.abs.isFinite = true := by
  rw [isFinite_iff, (fields_abs (isNaN_of_isFinite finite)).2.1]
  exact (isFinite_iff v).1 finite

/-- **The sign of a finite double and its magnitude make it.** -/
theorem eq_of_abs {v : Float} (finite : v.isFinite = true) :
    v = if isNegative v then -v.abs else v.abs := by
  have number := isNaN_of_isFinite finite
  obtain ⟨sign, exponent, fraction⟩ := fields_abs number
  have whole := toNat_toBits v
  apply Float.toBits_inj.1
  apply UInt64.toNat_inj.1
  cases negative : isNegative v with
  | true =>
      rw [if_pos rfl, toNat_toBits_neg (isNaN_of_isFinite (isFinite_abs finite)), sign, exponent,
        fraction, whole, negative]
      rfl
  | false =>
      rw [if_neg Bool.false_ne_true, toNat_toBits_abs number, whole, negative, signPart,
        if_neg Bool.false_ne_true, Nat.zero_add]

/-- **`Float.ofBits` keeps every pattern up to that of the infinity.** -/
theorem toNat_toBits_ofBits {n : Nat} (bound : n ≤ 0x7ff * 2 ^ 52) :
    (Float.ofBits (UInt64.ofNat n)).toBits.toNat = n := by
  have small : (UInt64.ofNat n).toBitVec.toNat = n := by
    rw [UInt64.toNat_toBitVec, UInt64.toNat_ofNat']
    exact Nat.mod_eq_of_lt (by omega)
  have noNaN : exponentBits (UInt64.ofNat n).toBitVec = -1#11 →
      fractionBits (UInt64.ofNat n).toBitVec = 0#52 := by
    intro top
    have high := congrArg BitVec.toNat top
    rw [toNat_exponentBits, small] at high
    apply BitVec.eq_of_toNat_eq
    rw [toNat_fractionBits, small]
    change _ = 2047 at high
    show _ = 0
    omega
  have kept := @pack_unpack Format.binary64 (UInt64.ofNat n).toBitVec (by decide)
  rw [if_neg (by simpa [isNaNBits] using noNaN)] at kept
  exact (congrArg BitVec.toNat kept).trans small

end Binary64

end SciCalc
