/-
# SciCalc.Binary64 -- the exact value of a double, and the double nearest to a fraction

A finite double is `± significand · 2 ^ exponent`; `Binary64.numerator` over
`Binary64.denominator` is its magnitude as a fraction of natural numbers.  In
the other direction `Binary64.nearest` is the double nearest to a fraction, a
tie going to the even significand, and the infinity when the fraction is too
large.  Its bit pattern needs no case for subnormal numbers nor for a
significand that rounds up to the next power of two: with the significand `q`
and the exponent `e`, counted from the least one, the magnitude's bits are
`(e + 1074) · 2 ^ 52 + q` in every case.

On these two rest the operations that have an exact answer: `floor`, `ceil`,
`round` and `remainder`, each computed on the fraction and none of them
rounding.
-/

namespace SciCalc

set_option autoImplicit false

/-- The natural number nearest to `num / den`, a tie going to the even one. -/
def roundHalfEven (num den : Nat) : Nat :=
  let q := num / den
  let r := num % den
  if 2 * r < den then q
  else if den < 2 * r then q + 1
  else q + q % 2

namespace Binary64

/-! ## From a double to a fraction -/

/-- The eleven bits of the exponent. -/
def exponentField (v : Float) : Nat := v.toBits.toNat / Nat.pow 2 52 % Nat.pow 2 11

/-- The fifty-two stored bits of the significand. -/
def fractionField (v : Float) : Nat := v.toBits.toNat % Nat.pow 2 52

/-- Whether the sign bit is set. -/
def isNegative (v : Float) : Bool := Nat.pow 2 63 ≤ v.toBits.toNat

/-- The significand of a finite double, with its leading bit where there is one. -/
def significand (v : Float) : Nat :=
  if exponentField v = 0 then fractionField v else Nat.pow 2 52 + fractionField v

/-- The exponent of two that goes with `significand`. -/
def exponent (v : Float) : Int :=
  if exponentField v = 0 then -1074 else (exponentField v : Int) - 1075

/-- The magnitude of a finite double is `numerator / denominator`. -/
def numerator (v : Float) : Nat := significand v * Nat.pow 2 (exponent v).toNat

/-- The magnitude of a finite double is `numerator / denominator`. -/
def denominator (v : Float) : Nat := Nat.pow 2 (-exponent v).toNat

theorem denominator_pos (v : Float) : 0 < denominator v := Nat.two_pow_pos _

/-! ## From a fraction to a double -/

/-- The exponent of two at which `num / den` has a significand of fifty-three
bits, but never less than the least exponent. -/
def nearestExponent (num den : Nat) : Int :=
  let k : Int := (num.log2 : Int) - den.log2
  let below := num * Nat.pow 2 (-k).toNat < den * Nat.pow 2 k.toNat
  max ((if below then k - 1 else k) - 52) (-1074)

/-- The bits of the double nearest to `num / den`. -/
def nearestBits (num den : Nat) : Nat :=
  if num = 0 then 0
  else
    let e := nearestExponent num den
    let q := roundHalfEven (num * Nat.pow 2 (-e).toNat) (den * Nat.pow 2 e.toNat)
    min ((e + 1074).toNat * Nat.pow 2 52 + q) (0x7ff * Nat.pow 2 52)

/-- The double nearest to `num / den`, a tie going to the even significand. -/
def nearest (num den : Nat) : Float := Float.ofBits (UInt64.ofNat (nearestBits num den))

/-- The double nearest to `± num / den`. -/
def signedNearest (negative : Bool) (num den : Nat) : Float :=
  if negative then -nearest num den else nearest num den

/-- The result of an operation that has no value. -/
def notANumber : Float := 0.0 / 0.0

/-! ## Whole numbers and remainders -/

/-- The greatest integer that is not above `v`. -/
def floor (v : Float) : Float :=
  if v.isFinite then
    let num := numerator v
    let den := denominator v
    signedNearest (isNegative v) (if isNegative v then (num + (den - 1)) / den else num / den) 1
  else v

/-- The least integer that is not below `v`. -/
def ceil (v : Float) : Float :=
  if v.isFinite then
    let num := numerator v
    let den := denominator v
    signedNearest (isNegative v) (if isNegative v then num / den else (num + (den - 1)) / den) 1
  else v

/-- The integer nearest to `v`, a half going away from zero. -/
def round (v : Float) : Float :=
  if v.isFinite then
    let num := numerator v
    let den := denominator v
    signedNearest (isNegative v) ((2 * num + den) / (2 * den)) 1
  else v

/-- The remainder of `v` after division by `k`, with the sign of `v`. -/
def remainder (v : Float) (k : Nat) : Float :=
  if v.isFinite then
    signedNearest (isNegative v) (numerator v % (k * denominator v)) (denominator v)
  else notANumber

/-- The remainder of `v` after division by `k`, brought into `[0, k]` by one addition. -/
def leastRemainder (v : Float) (k : Nat) : Float :=
  let r := remainder v k
  if r < 0 then r + Float.ofNat k else r

/-- The natural number that a finite double holds before its point. -/
def truncateToNat (v : Float) : Nat := numerator v / denominator v

/-! ## The constants of the circle and of growth -/

/-- The double nearest to π. -/
def pi : Float := 3.141592653589793

/-- The double nearest to the base of the natural logarithm. -/
def euler : Float := 2.718281828459045

end Binary64

end SciCalc
