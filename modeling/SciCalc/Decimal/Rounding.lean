/-
# SciCalc.Decimal.Rounding -- decimals near a fraction

A fraction of natural numbers is rounded to a number of places after the point
(`Decimal.toPlaces`) or of significant digits (`Decimal.toDigits`), in both
cases to the nearest decimal and on a tie to the one with an even last digit.

`Decimal.shortest` is the decimal with the fewest digits that `Decimal.toFloat`
reads back as a given double, and of two such decimals the nearer one, the
greater if they are equally near.  For one, two, … seventeen digits it tries the
two decimals around the double; whatever it answers was read back, or is the
double's exact value.
-/
import SciCalc.Decimal

namespace SciCalc

set_option autoImplicit false

namespace Decimal

/-- The exponent of ten of the first digit of `num / den`. -/
def leadingExponent (num den : Nat) : Int :=
  let k : Int := ((Text.ofNat num).length : Int) - (Text.ofNat den).length
  if num * Nat.pow 10 (-k).toNat < den * Nat.pow 10 k.toNat then k - 1 else k

/-- `num / den` rounded to `n` places after the point. -/
def toPlaces (num den n : Nat) : Decimal := ⟨roundHalfEven (num * Nat.pow 10 n) den, -(n : Int)⟩

/-- `num / den` rounded to `n + 1` significant digits. -/
def toDigits (num den n : Nat) : Decimal :=
  let e := leadingExponent num den - n
  let q := roundHalfEven (num * Nat.pow 10 (-e).toNat) (den * Nat.pow 10 e.toNat)
  if q = Nat.pow 10 (n + 1) then ⟨Nat.pow 10 n, e + 1⟩ else ⟨q, e⟩

/-! ## The fewest digits that read back -/

/-- The two decimals with exponent `e` around `num / den`, the nearer one first, and the greater
one if they are equally near. -/
def around (num den : Nat) (e : Int) : List Decimal :=
  let n := num * Nat.pow 10 (-e).toNat
  let d := den * Nat.pow 10 e.toNat
  let q := n / d
  let below := (⟨q, e⟩ : Decimal).trimmed
  let above := (⟨q + 1, e⟩ : Decimal).trimmed
  if 2 * (n % d) < d then [below, above] else [above, below]

/-- Whether a decimal reads back as the magnitude of `v`. -/
def readsAs (v : Float) (d : Decimal) : Bool := d.toFloat.toBits == v.abs.toBits

/-- A decimal of `n + 1` digits that reads back as the magnitude of `v`. -/
def shortestWith? (v : Float) (n : Nat) : Option Decimal :=
  let num := Binary64.numerator v
  let den := Binary64.denominator v
  (around num den (leadingExponent num den - n)).find? (readsAs v)

/-- The exact magnitude of a finite double. -/
def exact (v : Float) : Decimal :=
  let places := (-Binary64.exponent v).toNat
  ⟨Binary64.numerator v * Nat.pow 5 places, -(places : Int)⟩

/-- The decimal with the fewest digits that reads back as the magnitude of a finite double. -/
def shortest (v : Float) : Decimal :=
  ((List.range 17).findSome? (shortestWith? v)).getD (exact v).trimmed

/-- Every decimal that `shortestWith?` answers reads back. -/
theorem toBits_of_shortestWith? (v : Float) (n : Nat) (d : Decimal)
    (h : shortestWith? v n = some d) : d.toFloat.toBits = v.abs.toBits := by
  have : readsAs v d = true := List.find?_some h
  simpa [readsAs] using this

end Decimal

end SciCalc
