/-
# SciCalc.Display -- how a result is shown

A result is written with a number of places, and then the zeros at its end go,
and the point if nothing is left behind it (`Display.withoutEndZeros`).  Where
places say too little -- from 10^15 on and below 10^-9 -- it is written with
significant digits and an exponent instead, and the zeros at the end of the
digits go.  Zero is `0` whatever its sign, and what would be `-0` without its
zeros is shown as `0`.
-/
import SciCalc.Number

namespace SciCalc

set_option autoImplicit false

namespace Display

/-- Whether a magnitude is written without an exponent. -/
def isPlain (magnitude : Float) : Bool := 1e-9 ≤ magnitude && magnitude < 1e15

/-- The most significant digits, less one, that a result with an exponent shows. -/
def scientificPlaces : Nat := 16

/-- A text with a point without the zeros at its end, and then without the point if that is its
end; a text without a point as it is. -/
def withoutEndZeros (t : Text) : Text :=
  if t.contains '.' then (t.withoutEnd '0').withoutEnd '.' else t

/-- A text with an exponent without the zeros at the end of what stands before it. -/
def withoutSignificandZeros (t : Text) : Text :=
  match t.dropWhile (· != 'e') with
  | [] => t
  | e :: exponent => withoutEndZeros (t.takeWhile (· != 'e')) ++ e :: exponent

/-- A result with so many places at most. -/
def plain (digits : Nat) (v : Float) : Text :=
  let t := withoutEndZeros (Number.fixed digits v)
  if t = "-0".toList then "0" else t

/-- A result with so many digits behind the first one at most, and an exponent. -/
def withExponent (digits : Nat) (v : Float) : Text :=
  withoutSignificandZeros (Number.scientificTo (min digits scientificPlaces) v)

/-- A result as it is shown. -/
def result (digits : Nat) (v : Float) : Text :=
  if v == 0 then "0"
  else if !v.isFinite then Number.text v
  else if isPlain v.abs then plain digits v
  else withExponent digits v

end Display

end SciCalc
