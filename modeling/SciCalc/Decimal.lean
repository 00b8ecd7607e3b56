/-
# SciCalc.Decimal -- decimal numbers and their reading

A decimal is a natural coefficient with an exponent of ten.  `Decimal.toFloat`
is the double nearest to it.  `Decimal.ofNumeral?` reads the numerals of an
entry -- digits, or digits, a point and digits, nothing else -- as decimals, so
no precision is lost before the one rounding of `toFloat`.
-/
import SciCalc.Text
import SciCalc.Binary64

namespace SciCalc

set_option autoImplicit false

/-- The number `coefficient · 10 ^ exponent`. -/
structure Decimal where
  coefficient : Nat
  exponent : Int
  deriving DecidableEq, Repr

namespace Decimal

/-- The double nearest to a decimal, a tie going to the even significand. -/
def toFloat (d : Decimal) : Float :=
  Binary64.nearest (d.coefficient * Nat.pow 10 d.exponent.toNat)
    (Nat.pow 10 (-d.exponent).toNat)

/-- Divides by ten as long as the division is exact, at most `fuel` times. -/
def dropZeros : Nat → Nat → Int → Decimal
  | 0, c, e => ⟨c, e⟩
  | fuel + 1, c, e => if c % 10 = 0 then dropZeros fuel (c / 10) (e + 1) else ⟨c, e⟩

/-- The same number with a coefficient that does not end in a zero; zero itself is `0 · 10 ^ 0`. -/
def trimmed (d : Decimal) : Decimal :=
  if d.coefficient = 0 then ⟨0, 0⟩ else dropZeros (Nat.log2 d.coefficient) d.coefficient d.exponent

/-! ## Numerals -/

/-- Whether a character may stand in a numeral. -/
def isNumeral (c : Char) : Bool := c.isDigit || c == '.'

/-- The natural number that a text of digits denotes. -/
def natOfDigits (t : Text) : Nat := Nat.ofDigitChars 10 t 0

/-- The number that `whole.fraction` denotes. -/
def ofDigits (whole fraction : Text) : Decimal :=
  ⟨natOfDigits (whole ++ fraction), -(fraction.length : Int)⟩

/-- Reads digits, or digits, a point and digits; any other text is no numeral. -/
def ofNumeral? (t : Text) : Option Decimal :=
  let whole := t.takeWhile Char.isDigit
  match t.dropWhile Char.isDigit with
  | [] => if whole.isEmpty then none else some (ofDigits whole [])
  | c :: fraction =>
    if c == '.' && !whole.isEmpty && !fraction.isEmpty && fraction.all Char.isDigit then
      some (ofDigits whole fraction)
    else none

end Decimal

end SciCalc
