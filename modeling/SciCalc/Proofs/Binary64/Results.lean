/-
# SciCalc.Proofs.Binary64.Results -- sums and products are the doubles nearest to the exact ones

A sum and a product of finite doubles are computed exactly on significands and
exponents and rounded by shifts that keep a round bit and a sticky bit.  The two
bits say where the remainder of the division stands next to a half, so the rounding
is that of the quotient (`Binary64.roundedMantissa_shiftRight`), and what is packed
is the nearest double (`Binary64.packed_round`).  So the operations are those on
rational numbers but for one rounding at the end (`Binary64.add_eq_ofRat`,
`Binary64.mul_eq_ofRat`), and a product is finite when the exact one is not too
large (`Binary64.isFinite_mul_iff`).  Of a quotient only that is said here
(`Binary64.isFinite_div`).
-/
import Mathlib
import SciCalc.Proofs.Binary64.Grid

namespace SciCalc

set_option autoImplicit false

namespace Binary64

open Float.Model Float.Model.UnpackedFloat

variable {v a b : Float}

/-! ## Rounding by shifts -/

/-- **The two bits that shifts leave behind** say where the remainder stands next to a half: the
round bit that it is no less, the sticky bit that it is neither that nor zero. -/
theorem shiftRight_bits (m k : Nat) :
    ((ExtendedMantissa.ofMantissaAndAccuracy m .exact >>> k).roundBit = true ↔
        2 ^ k ≤ 2 * (m % 2 ^ k)) ∧
      ((ExtendedMantissa.ofMantissaAndAccuracy m .exact >>> k).stickyBit = true ↔
        m % 2 ^ k ≠ 0 ∧ 2 * (m % 2 ^ k) ≠ 2 ^ k) := by
  induction k with
  | zero =>
      rw [Nat.pow_zero, Nat.mod_one, Nat.mul_zero]
      exact ⟨iff_of_false Bool.false_ne_true (by decide),
        iff_of_false Bool.false_ne_true fun some => some.1 rfl⟩
  | succ k ih =>
      have whole := mantissa_shiftRight (.ofMantissaAndAccuracy m .exact) k
      change _ = m / 2 ^ k at whole
      have small := Nat.mod_lt m (Nat.two_pow_pos k)
      have bit := Nat.mod_lt (m / 2 ^ k) (by decide : 0 < 2)
      generalize ExtendedMantissa.ofMantissaAndAccuracy m .exact = em at ih whole ⊢
      have next : em >>> (k + 1) = (em >>> k).shiftRightOne := rfl
      rw [next, ExtendedMantissa.shiftRightOne, whole, Nat.mod_pow_succ, Nat.pow_succ]
      simp only [Bool.or_eq_true, ih.1, ih.2, bne_iff_ne]
      -- the bit that is shifted out tells which half of the new modulus the remainder is in
      generalize m / 2 ^ k % 2 = b at bit
      generalize m % 2 ^ k = r at small
      generalize 2 ^ k = p at small
      interval_cases b <;> omega

/-- **A shift rounds as the division by its power of two.** -/
theorem roundedMantissa_shiftRight (m k : Nat) :
    (ExtendedMantissa.ofMantissaAndAccuracy m .exact >>> k).roundedMantissa =
      roundHalfEven m (2 ^ k) := by
  have whole := mantissa_shiftRight (.ofMantissaAndAccuracy m .exact) k
  change _ = m / 2 ^ k at whole
  obtain ⟨round, sticky⟩ := shiftRight_bits m k
  have small := Nat.mod_lt m (Nat.two_pow_pos k)
  generalize ExtendedMantissa.ofMantissaAndAccuracy m .exact >>> k = em at whole round sticky
  obtain ⟨mantissa, roundBit, stickyBit⟩ := em
  simp only at whole round sticky
  subst whole
  unfold roundHalfEven
  simp only
  generalize m % 2 ^ k = r at *
  cases roundBit with
  | false =>
      have below : 2 * r < 2 ^ k := not_le.1 fun atLeast => Bool.false_ne_true (round.2 atLeast)
      rw [if_pos below]
      cases stickyBit <;> rfl
  | true =>
      have atLeast := round.1 rfl
      rw [if_neg (not_lt.2 atLeast)]
      cases stickyBit with
      | false =>
          have some : r ≠ 0 := by
            rintro rfl
            exact absurd atLeast (not_le.2 (Nat.two_pow_pos k))
          have tie : 2 * r = 2 ^ k := by
            by_contra apart
            exact Bool.false_ne_true (sticky.2 ⟨some, apart⟩)
          rw [if_neg (not_lt.2 tie.le)]
          rfl
      | true =>
          rw [if_pos (lt_of_le_of_ne atLeast (sticky.1 rfl).2.symm)]
          rfl

/-! ## Packing -/

/-- **The pattern of a packed result**: that of the infinity where the exponent is too great. -/
theorem toNat_packed (s : Sign) {m : Nat} {e : Int} (parts : Canonical m e) :
    (packed (ofParts s m e)).toBits.toNat =
      signPart (s == .negative) + min ((e + 1074).toNat * 2 ^ 52 + m) (0x7ff * 2 ^ 52) := by
  have least := parts.least
  have short := parts.short
  have leading := parts.leading
  have components (E : BitVec 11) (M : BitVec 52) :
      (packComponents Format.binary64 s E M).toNat =
        signPart (s == .negative) + E.toNat * 2 ^ 52 + M.toNat := by
    rw [toNat_packComponents, signPart_ofBitVec]
  show (UnpackedFloat.pack Format.binary64 (ofParts s m e)).toNat = _
  unfold ofParts
  split
  · rename_i none
    refine (components 0#11 0#52).trans ?_
    rw [none]
    show signPart (s == .negative) + 0 + 0 = _
    omega
  · rename_i some
    unfold UnpackedFloat.pack
    simp only
    split
    · rename_i large
      have many : 2 ^ 11 ≤ (e + (1023 : Nat) + (52 : Nat)).toNat + 1 := large
      refine (components (-1#11) 0#52).trans ?_
      show signPart (s == .negative) + 2047 * 2 ^ 52 + 0 = _
      omega
    · rename_i within
      have few : ¬ 2 ^ 11 ≤ (e + (1023 : Nat) + (52 : Nat)).toNat + 1 := within
      split
      · rename_i normal
        have bits : m.log2 + 1 = 53 := normal
        have atLeast := (Nat.le_log2 some (k := 52)).1 (by omega)
        refine (components _ _).trans ?_
        rw [BitVec.toNat_ofNat, BitVec.toNat_ofNat]
        show signPart (s == .negative) + (e + (1023 : Nat) + (52 : Nat)).toNat % 2 ^ 11 * 2 ^ 52 +
          m % 2 ^ 52 = _
        omega
      · rename_i subnormal
        have bits : m.log2 + 1 ≠ 53 := subnormal
        have atMost := (Nat.log2_lt some (k := 53)).2 short
        have below := (Nat.log2_lt some (k := 52)).1 (by omega)
        refine (components _ _).trans ?_
        rw [BitVec.toNat_ofNat]
        show signPart (s == .negative) + 0 * 2 ^ 52 + m % 2 ^ 52 = _
        omega

/-- A finite double is what its parts are packed to. -/
theorem packed_unpacked (finite : v.isFinite = true) : packed (unpacked v) = v := by
  have sign : ((if isNegative v then Sign.negative else .positive) == Sign.negative) =
      isNegative v := by
    cases isNegative v <;> rfl
  have top := (isFinite_iff v).1 finite
  have high := exponentField_lt v
  have low := fractionField_lt v
  apply Float.toBits_inj.1
  apply UInt64.toNat_inj.1
  rw [unpacked_eq finite, toNat_packed _ (canonical v), toNat_toBits, sign]
  rcases significand_spec v with ⟨subnormal, stored, least⟩ | ⟨normal, stored, raised⟩
  · rw [Nat.min_eq_left (by omega)]
    omega
  · rw [Nat.min_eq_left (by omega)]
    omega

/-! ## Operations -/

/-- The parts of a rounded result: what is shifted out is rounded, and a carry shifted out again. -/
theorem roundWithAccuracy_exact (s : Sign) (m : Nat) (e : Int) :
    let t := shifted m e
    let r := roundHalfEven m (2 ^ (t - e).toNat)
    roundWithAccuracy Format.binary64 s m e .exact =
      ofParts s (r / 2 ^ (shifted r t - t).toNat) (shifted r t) := by
  intro t r
  have target : Format.binary64.targetExponent (totalExponent m e) =
      max (totalExponent m e - 53) (-1074) := rfl
  have amount : (Format.binary64.targetExponent (totalExponent m e) - e).toNat = (t - e).toNat := by
    rw [target]
    show _ = (shifted m e - e).toNat
    rw [shifted]
    omega
  have rounded : (shiftToTargetExponent Format.binary64 m e .exact).1.roundedMantissa = r := by
    refine (roundedMantissa_shiftRight m _).trans ?_
    rw [amount]
  have exponent : (shiftToTargetExponent Format.binary64 m e .exact).2 = t :=
    (shiftToTargetExponent_spec m e .exact).2
  have unfolded : roundWithAccuracy Format.binary64 s m e .exact =
      ofParts s
        (shiftToTargetExponent Format.binary64
          (shiftToTargetExponent Format.binary64 m e .exact).1.roundedMantissa
          (shiftToTargetExponent Format.binary64 m e .exact).2 .exact).1.mantissa
        (shiftToTargetExponent Format.binary64
          (shiftToTargetExponent Format.binary64 m e .exact).1.roundedMantissa
          (shiftToTargetExponent Format.binary64 m e .exact).2 .exact).2 := rfl
  obtain ⟨mantissa, last⟩ := shiftToTargetExponent_spec r t .exact
  rw [unfolded, rounded, exponent, mantissa, last]

/-- A significand with its exponent, as a fraction of natural numbers. -/
theorem fraction_eq (m : Nat) (e : Int) :
    ((m * 2 ^ e.toNat : Nat) : ℚ) / (2 ^ (-e).toNat : Nat) = m * 2 ^ e := by
  rw [zpow_eq_div]
  push_cast
  ring

/-- **A carry is shifted out** and changes nothing in the pattern. -/
theorem toNat_packed_carried (s : Sign) {r : Nat} {t : Int} (short : r ≤ 2 ^ 53)
    (least : -1074 ≤ t) (leading : t = -1074 ∨ 2 ^ 52 ≤ r) :
    (packed (ofParts s (r / 2 ^ (shifted r t - t).toNat) (shifted r t))).toBits.toNat =
      signPart (s == .negative) + min ((t + 1074).toNat * 2 ^ 52 + r) (0x7ff * 2 ^ 52) := by
  rcases Nat.lt_or_eq_of_le short with less | carry
  · have bits : r.log2 < 53 := by
      rcases Nat.eq_zero_or_pos r with rfl | pos
      · decide
      · exact (Nat.log2_lt pos.ne').2 less
    have still : shifted r t = t := by
      unfold shifted totalExponent
      omega
    rw [still, Int.sub_self, Int.toNat_zero, Nat.pow_zero, Nat.div_one,
      toNat_packed s ⟨less, least, leading⟩]
  · have next : shifted r t = t + 1 := by
      rw [carry, shifted, totalExponent, Nat.log2_two_pow]
      omega
    have half : r / 2 ^ (t + 1 - t).toNat = 2 ^ 52 := by
      rw [add_sub_cancel_left, carry]
      rfl
    rw [next, half, toNat_packed s ⟨by decide, by omega, .inr (by decide)⟩]
    omega

/-- **What is rounded at its exponent or a higher one is packed to the nearest double.** -/
theorem packed_roundWithAccuracy (s : Sign) {m : Nat} {e : Int} (some : m ≠ 0)
    (low : e ≤ max (totalExponent m e - 53) (-1074)) :
    packed (roundWithAccuracy Format.binary64 s m e .exact) =
      signedNearest (s == .negative) (m * 2 ^ e.toNat) (2 ^ (-e).toNat) := by
  have some' : m * 2 ^ e.toNat ≠ 0 := Nat.mul_ne_zero some (Nat.two_pow_pos _).ne'
  have pos : 0 < 2 ^ (-e).toNat := Nat.two_pow_pos _
  have raised : shifted m e = nearestExponent (m * 2 ^ e.toNat) (2 ^ (-e).toNat) := by
    rw [nearestExponent_eq some' pos, fraction_eq, log_mul_zpow some, shifted]
    unfold totalExponent at *
    omega
  have rounded : roundHalfEven m (2 ^ (shifted m e - e).toNat) =
      nearestSignificand (m * 2 ^ e.toNat) (2 ^ (-e).toNat) := by
    unfold nearestSignificand
    rw [← raised]
    have above : e ≤ shifted m e := le_max_left _ _
    generalize shifted m e = t at above
    apply roundHalfEven_congr (by positivity) (by positivity)
    rw [Nat.mul_assoc, Nat.mul_assoc, ← Nat.pow_add, ← Nat.pow_add, ← Nat.pow_add]
    congr 2
    omega
  obtain ⟨short, leading⟩ := nearestSignificand_spec some' pos
  obtain ⟨least, -⟩ := nearestExponent_spec some' pos
  have parts := roundWithAccuracy_exact s m e
  simp only [rounded] at parts
  apply Float.toBits_inj.1
  apply UInt64.toNat_inj.1
  rw [← raised] at least leading
  rw [parts, toNat_packed_carried s short least leading, toNat_signedNearest, nearestBits_eq some',
    raised]

theorem log2_shiftLeft {m : Nat} (some : m ≠ 0) (k : Nat) : (m <<< k).log2 = m.log2 + k := by
  have low := Nat.log2_self_le some
  have high := Nat.lt_log2_self (n := m)
  rw [Nat.shiftLeft_eq, Nat.log2_eq_iff (Nat.mul_ne_zero some (Nat.two_pow_pos k).ne')]
  constructor
  · rw [Nat.pow_add]
    exact Nat.mul_le_mul_right _ low
  · rw [Nat.add_right_comm, Nat.pow_add]
    exact Nat.mul_lt_mul_of_pos_right high (Nat.two_pow_pos k)

/-- **What is rounded is packed to the nearest double**, whatever its exponent. -/
theorem packed_round (s : Sign) {m : Nat} (e : Int) (some : m ≠ 0) :
    packed (UnpackedFloat.round Format.binary64 s m e) =
      signedNearest (s == .negative) (m * 2 ^ e.toNat) (2 ^ (-e).toNat) := by
  let k := (e - max (totalExponent m e - 53) (-1074)).toNat
  have some' : m <<< k ≠ 0 := by
    rw [Nat.shiftLeft_eq]
    exact Nat.mul_ne_zero some (Nat.two_pow_pos k).ne'
  have low : e - k ≤ max (totalExponent (m <<< k) (e - k) - 53) (-1074) := by
    unfold totalExponent
    rw [log2_shiftLeft some]
    unfold k totalExponent
    omega
  refine (packed_roundWithAccuracy s some' low).trans ?_
  apply signedNearest_congr _ (Nat.two_pow_pos _) (Nat.two_pow_pos _)
  rw [fraction_eq, fraction_eq, Nat.shiftLeft_eq, zpow_sub₀ (by norm_num), zpow_natCast]
  push_cast
  field_simp

/-- A significand with a sign and an exponent has the nearest double of its value. -/
theorem signedNearest_parts (s : Sign) {m : Nat} (e : Int) (some : m ≠ 0) :
    signedNearest (s == .negative) (m * 2 ^ e.toNat) (2 ^ (-e).toNat) =
      ofRat ((s.apply m : Int) * 2 ^ e) := by
  rw [signedNearest_eq_ofRat _ (Nat.mul_ne_zero some (Nat.two_pow_pos _).ne') (Nat.two_pow_pos _),
    fraction_eq]
  cases s with
  | negative =>
      rw [if_pos (by rfl), Sign.apply, Int.cast_neg, Int.cast_natCast, neg_mul]
  | positive =>
      rw [if_neg (by decide), Sign.apply, Int.cast_natCast]

theorem packed_normalize (s : Sign) {n : Int} (e : Int) (some : n ≠ 0) :
    packed (UnpackedFloat.normalize Format.binary64 n e s) = ofRat (n * 2 ^ e) := by
  unfold UnpackedFloat.normalize
  split
  · rename_i below
    have negative := Int.compare_eq_lt.1 below
    have same : Sign.negative.apply ((-n).toNat : Nat) = n := by
      rw [Sign.apply]
      omega
    rw [packed_round .negative e (by omega), signedNearest_parts .negative e (by omega), same]
  · rename_i zero
    exact absurd (Int.compare_eq_eq.1 zero) some
  · rename_i above
    have positive := Int.compare_eq_gt.1 above
    have same : Sign.positive.apply (n.toNat : Nat) = n := by
      rw [Sign.apply]
      omega
    rw [packed_round .positive e (by omega), signedNearest_parts .positive e (by omega), same]

/-- The sign of a double. -/
def sign (v : Float) : Sign := if isNegative v then .negative else .positive

theorem toRat_eq_apply (v : Float) :
    toRat v = ((sign v).apply (significand v) : Int) * 2 ^ exponent v := by
  rw [toRat, magnitude_eq, sign]
  cases isNegative v <;> simp [Sign.apply]

/-- What a finite double is unpacked to if it is not zero. -/
theorem unpacked_of_ne_zero (finite : v.isFinite = true) (some : significand v ≠ 0) :
    unpacked v =
      .finite (sign v) (significand v) (exponent v) (Nat.pos_of_ne_zero some) := by
  rw [unpacked_eq finite, ofParts, dif_neg some]
  rfl

/-- What a finite double is unpacked to if it is zero. -/
theorem unpacked_of_eq_zero (finite : v.isFinite = true) (none : significand v = 0) :
    unpacked v = .zero (sign v) := by
  rw [unpacked_eq finite, ofParts, dif_pos none]
  rfl

theorem toRat_of_eq_zero (none : significand v = 0) : toRat v = 0 := by
  rw [← abs_eq_zero, abs_toRat, magnitude_eq_zero_iff, none]

/-- A significand shifted to a lower exponent, with its sign. -/
theorem apply_shiftLeft (s : Sign) (m : Nat) {e least : Int} (lower : least ≤ e) :
    ((s.apply (m <<< (e - least).toNat : Nat) : Int) : ℚ) * 2 ^ least =
      (s.apply m : Int) * 2 ^ e := by
  have power : (2 : ℚ) ^ e = 2 ^ (e - least).toNat * 2 ^ least := by
    rw [← zpow_natCast, ← zpow_add₀ (by norm_num), Int.toNat_of_nonneg (by omega)]
    congr 1
    omega
  rw [Nat.shiftLeft_eq, power]
  cases s <;> simp only [Sign.apply] <;> push_cast <;> ring

/-- **A sum is the double nearest to the exact sum.** -/
theorem add_eq_ofRat (finite : a.isFinite = true) (finite' : b.isFinite = true)
    (some : toRat a + toRat b ≠ 0) : a + b = ofRat (toRat a + toRat b) := by
  show packed (UnpackedFloat.add Format.binary64 (unpacked a) (unpacked b)) = _
  by_cases none : significand a = 0
  · have some' : significand b ≠ 0 := by
      intro none'
      exact some (by rw [toRat_of_eq_zero none, toRat_of_eq_zero none', add_zero])
    have same : UnpackedFloat.add Format.binary64 (unpacked a) (unpacked b) = unpacked b := by
      rw [unpacked_of_eq_zero finite none, unpacked_of_ne_zero finite' some']
      rfl
    rw [same, packed_unpacked finite', toRat_of_eq_zero none, zero_add, ofRat_toRat finite' some']
  by_cases none' : significand b = 0
  · have same : UnpackedFloat.add Format.binary64 (unpacked a) (unpacked b) = unpacked a := by
      rw [unpacked_of_ne_zero finite none, unpacked_of_eq_zero finite' none']
      rfl
    rw [same, packed_unpacked finite, toRat_of_eq_zero none', add_zero, ofRat_toRat finite none]
  rw [unpacked_of_ne_zero finite none, unpacked_of_ne_zero finite' none']
  -- both significands at the lesser exponent
  let least := min (exponent a) (exponent b)
  let total := (sign a).apply (significand a <<< (exponent a - least).toNat : Nat) +
    (sign b).apply (significand b <<< (exponent b - least).toNat : Nat)
  have value : (total : ℚ) * 2 ^ least = toRat a + toRat b := by
    rw [Int.cast_add, add_mul, apply_shiftLeft _ _ (Int.min_le_left _ _),
      apply_shiftLeft _ _ (Int.min_le_right _ _), toRat_eq_apply a, toRat_eq_apply b]
  have total_ne : total ≠ 0 := by
    intro zero
    rw [zero, Int.cast_zero, zero_mul] at value
    exact some value.symm
  rw [← value]
  exact packed_normalize .positive least total_ne

/-- **A product is the double nearest to the exact product.** -/
theorem mul_eq_ofRat (finite : a.isFinite = true) (finite' : b.isFinite = true)
    (some : toRat a * toRat b ≠ 0) : a * b = ofRat (toRat a * toRat b) := by
  have some_left : significand a ≠ 0 := fun none =>
    some (by rw [toRat_of_eq_zero none, zero_mul])
  have some_right : significand b ≠ 0 := fun none =>
    some (by rw [toRat_of_eq_zero none, mul_zero])
  have product : significand a * significand b ≠ 0 := Nat.mul_ne_zero some_left some_right
  -- the product of significands has bits enough to be rounded at its exponent or a higher one
  have low : exponent a + exponent b ≤
      max (totalExponent (significand a * significand b) (exponent a + exponent b) - 53)
        (-1074) := by
    obtain ⟨-, least, leading⟩ := canonical a
    obtain ⟨-, least', leading'⟩ := canonical b
    unfold totalExponent
    rcases leading with first | leading
    · rcases leading' with first' | leading'
      · omega
      · have bits : 52 ≤ (significand a * significand b).log2 :=
          (Nat.le_log2 product).2 (leading'.trans (Nat.le_mul_of_pos_left _ (by omega)))
        omega
    · have bits : 52 ≤ (significand a * significand b).log2 :=
        (Nat.le_log2 product).2 (leading.trans (Nat.le_mul_of_pos_right _ (by omega)))
      omega
  show packed (UnpackedFloat.mul Format.binary64 (unpacked a) (unpacked b)) = _
  rw [unpacked_of_ne_zero finite some_left, unpacked_of_ne_zero finite' some_right]
  refine (packed_roundWithAccuracy (sign a * sign b) product low).trans ?_
  have signed : (sign a * sign b).apply (significand a * significand b : Nat) =
      (sign a).apply (significand a) * (sign b).apply (significand b) := by
    rw [Nat.cast_mul]
    cases sign a <;> cases sign b
    · exact (neg_mul_neg _ _).symm
    · exact (neg_mul _ _).symm
    · exact (mul_neg _ _).symm
    · rfl
  rw [signedNearest_parts _ _ product, signed, toRat_eq_apply a, toRat_eq_apply b, Int.cast_mul,
    zpow_add₀ (by norm_num)]
  congr 1
  ring

/-! ## Which results are finite -/

/-- What a double can hold without becoming infinite is more than fifty-three bits. -/
theorem lt_limit {x : ℚ} (small : x < 2 ^ 54 - 1) : x < 2 ^ 1024 - 2 ^ 970 := by
  have power : (1 : ℚ) ≤ 2 ^ (970 : Int) := one_le_zpow₀ (by norm_num) (by norm_num)
  rw [limit_eq]
  generalize (2 : ℚ) ^ (970 : Int) = top at power
  nlinarith

/-- **A product is finite** if the exact one is below the middle between the greatest double and
the next power of two. -/
theorem isFinite_mul_iff (finite : a.isFinite = true) (finite' : b.isFinite = true) :
    (a * b).isFinite = true ↔ |toRat a * toRat b| < 2 ^ 1024 - 2 ^ 970 := by
  by_cases none : toRat a * toRat b = 0
  · have limit : |(0 : ℚ)| < 2 ^ 1024 - 2 ^ 970 := lt_limit (by norm_num)
    have product : (a * b).isFinite = true ↔
        Fits (UnpackedFloat.mul Format.binary64 (unpacked a) (unpacked b)) := isFinite_packed_iff
    rw [none, product]
    refine iff_of_true ?_ limit
    have zero : significand a = 0 ∨ significand b = 0 := by
      rw [← magnitude_eq_zero_iff, ← magnitude_eq_zero_iff, ← abs_toRat, ← abs_toRat, abs_eq_zero,
        abs_eq_zero]
      exact mul_eq_zero.1 none
    have first := within_of_isFinite finite
    have second := within_of_isFinite finite'
    rcases zero with zero | zero
    · rw [unpacked_of_eq_zero finite zero]
      generalize unpacked b = y at second
      cases second <;> trivial
    · rw [unpacked_of_eq_zero finite' zero]
      generalize unpacked a = x at first
      cases first <;> trivial
  · rw [mul_eq_ofRat finite finite' none, isFinite_ofRat_iff]

/-- A quotient of doubles that are not too far apart is finite. -/
theorem isFinite_div {i j : Int} (finite : a.isFinite = true) (finite' : b.isFinite = true)
    (above : |toRat a| ≤ 2 ^ i) (below : 2 ^ j ≤ |toRat b|) (near : i - j ≤ 1022) :
    (a / b).isFinite = true := by
  have quotient : (a / b).isFinite = true ↔
      Fits (UnpackedFloat.div Format.binary64 (unpacked a) (unpacked b)) := isFinite_packed_iff
  rw [quotient]
  have some : significand b ≠ 0 := by
    intro none
    have power : (0 : ℚ) < 2 ^ j := by positivity
    rw [toRat_of_eq_zero none, abs_zero] at below
    linarith
  rw [unpacked_of_ne_zero finite' some]
  by_cases none : significand a = 0
  · rw [unpacked_of_eq_zero finite none]
    trivial
  · rw [unpacked_of_ne_zero finite none]
    apply fits_div
    rw [abs_toRat] at above below
    have high := Int.log_mono_right (b := 2) (magnitude_pos none) above
    have low := Int.log_mono_right (b := 2) (zpow_pos two_pos j) below
    rw [log_magnitude none] at high
    rw [log_magnitude some] at low
    have powers (k : Int) : Int.log 2 ((2 : ℚ) ^ k) = k := Int.log_zpow one_lt_two k
    rw [powers] at high low
    unfold totalExponent
    omega

end Binary64

end SciCalc
