/-
# SciCalc.Number -- how a double is written

Four ways of writing share the layouts of a decimal, `Decimal.positional` and
`Decimal.scientific`:

* `Number.text` -- the fewest digits that read back, never with an exponent;
* `Number.scientific` -- the same digits, one before the point, with an exponent;
* `Number.fixed` -- so many places, correctly rounded, never with an exponent;
* `Number.scientificTo` -- so many significant digits, correctly rounded.

The sign of zero is written.  What is not finite is `inf`, `-inf` or `NaN`.
-/
import SciCalc.Decimal.Rounding

namespace SciCalc

set_option autoImplicit false

namespace Text

/-- The decimal digits of an integer, after a minus sign if it is negative. -/
def ofInt (n : Int) : Text := if n < 0 then '-' :: ofNat n.natAbs else ofNat n.natAbs

end Text

namespace Decimal

/-- Digits with a point where one is needed, never an exponent: `1200`, `0.05`, `1.5`. -/
def positional (d : Decimal) : Text :=
  let digits := Text.ofNat d.coefficient
  if 0 ≤ d.exponent then digits ++ List.replicate d.exponent.toNat '0'
  else
    let places := (-d.exponent).toNat
    let padded := List.replicate (places + 1 - digits.length) '0' ++ digits
    let whole := padded.length - places
    padded.take whole ++ '.' :: padded.drop whole

/-- The first digit, a point and the other digits if there are any. -/
def mantissa : Text → Text
  | first :: second :: rest => first :: '.' :: second :: rest
  | digits => digits

/-- One digit, a point and the other digits if there are any, and an exponent: `1.5e-7`, `3e20`. -/
def scientific (d : Decimal) : Text :=
  let digits := Text.ofNat d.coefficient
  mantissa digits ++ 'e' :: Text.ofInt (d.exponent + (digits.length - 1 : Nat))

end Decimal

namespace Number

/-- The sign, then what `write` makes of the magnitude, if `v` is finite; else its name. -/
def signed (write : Float → Text) (v : Float) : Text :=
  if v.isNaN then "NaN"
  else
    let magnitude : Text := if v.isFinite then write v else "inf"
    if Binary64.isNegative v then '-' :: magnitude else magnitude

/-- The fewest digits that read back, never with an exponent. -/
def text (v : Float) : Text := signed (fun v => (Decimal.shortest v).positional) v

/-- The fewest digits that read back, with an exponent. -/
def scientific (v : Float) : Text := signed (fun v => (Decimal.shortest v).scientific) v

/-- Correctly rounded to `n` places, all of them written, never with an exponent. -/
def fixed (n : Nat) (v : Float) : Text :=
  signed (fun v =>
    (Decimal.toPlaces (Binary64.numerator v) (Binary64.denominator v) n).positional) v

/-- Correctly rounded to `n + 1` significant digits, with an exponent. -/
def scientificTo (n : Nat) (v : Float) : Text :=
  signed (fun v =>
    if v == 0 then Decimal.mantissa (List.replicate (n + 1) '0') ++ ['e', '0']
    else (Decimal.toDigits (Binary64.numerator v) (Binary64.denominator v) n).scientific) v

end Number

end SciCalc
