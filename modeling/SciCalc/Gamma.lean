/-
# SciCalc.Gamma -- the gamma function of the machine

The machine has no gamma function of its own, and `Gamma.value` is the one it is
given: Γ away from its poles.  At a whole number up to twenty-three it is an
exact factorial.  Elsewhere it is the approximation by a rational function `S`
with thirteen coefficients above and below,

  Γ(x) = S(x) · exp(-(x + g)) · (x + g) ^ (x - 1/2),

where `g` is `gShift`; the rounding error of `x + g` is carried along as a
correction of first order.  A negative argument goes through the reflection
formula Γ(x) · Γ(-x) = -π / (x · sin(π x)).
-/
import SciCalc.Binary64

namespace SciCalc

set_option autoImplicit false

namespace Gamma

/-- The shift `g` of the approximation, less one half. -/
def gShift : Float := 5.524680040776729583740234375

/-- The coefficients above the bar of `S`, of degree zero first. -/
def above : List Float :=
  [23531376880.410759688572007674451636754734846804940,
    42919803642.649098768957899047001988850926355848959,
    35711959237.355668049440185451547166705960488635843,
    17921034426.037209699919755754458931112671403265390,
    6039542586.3520280050642916443072979210699388420708,
    1439720407.3117216736632230727949123939715485786372,
    248874557.86205415651146038641322942321632125127801,
    31426415.585400194380614231628318205362874684987640,
    2876370.6289353724412254090516208496135991145378768,
    186056.26539522349504029498971604569928220784236328,
    8071.6720023658162106380029022722506138216518325024,
    210.82427775157934587250973392071336271166969580291,
    2.5066282746310002701649081771338373386264310793408]

/-- The coefficients below the bar of `S`: `x (x + 1) … (x + 11)` multiplied out. -/
def below : List Float :=
  [0.0, 39916800.0, 120543840.0, 150917976.0, 105258076.0, 45995730.0, 13339535.0, 2637558.0,
    357423.0, 32670.0, 1925.0, 66.0, 1.0]

/-- The polynomial with these coefficients, of degree zero first, at `x`. -/
def polynomial (coefficients : List Float) (x : Float) : Float :=
  coefficients.foldr (fun c acc => acc * x + c) 0.0

/-- The polynomial with these coefficients, of degree zero first, over `x ^ 12`. -/
def reversedPolynomial (coefficients : List Float) (x : Float) : Float :=
  coefficients.foldl (fun acc c => acc / x + c) 0.0

/-- The rational function of the approximation, for a positive argument. -/
def rational (x : Float) : Float :=
  if x < 8.0 then polynomial above x / polynomial below x
  else reversedPolynomial above x / reversedPolynomial below x

/-- The sine of `π x` for a positive `x`, the period taken off exactly and the
rest brought within an eighth of it. -/
def sinPi (x : Float) : Float :=
  let half := x * 0.5
  let y := 2.0 * (half - Binary64.floor half)
  let n := (Binary64.truncateToNat (4.0 * y) + 1) / 2
  let z := (y - Float.ofNat n * 0.5) * Binary64.pi
  match n with
  | 1 => z.cos
  | 2 => (-z).sin
  | 3 => -z.cos
  | _ => z.sin

/-- The product of the numbers from one to `n`. -/
def factorial : Nat → Nat
  | 0 => 1
  | n + 1 => (n + 1) * factorial n

/-- The approximation, for an argument that is no whole number or a large one,
of magnitude below 184. -/
def approximate (x : Float) : Float :=
  let a := x.abs
  let y := a + gShift
  let dy := if gShift < a then y - a - gShift else y - gShift - a
  let r := rational a * (-y).exp
  let z := a - 0.5
  if x < 0 then
    let r := -Binary64.pi / (sinPi a * a * r)
    let r := r + -dy * (gShift + 0.5) * r / y
    let p := y.pow (0.5 * -z)
    r * p * p
  else
    let r := r + dy * (gShift + 0.5) * r / y
    let p := y.pow (0.5 * z)
    r * p * p

/-- The gamma function away from its poles. -/
def value (x : Float) : Float :=
  if !x.isFinite then x + 1.0 / 0.0
  else if x.abs < 5.551115123125783e-17 then 1.0 / x
  else if x == Binary64.floor x && x < 0 then Binary64.notANumber
  else if x == Binary64.floor x && x ≤ 23.0 then
    Float.ofNat (factorial (Binary64.truncateToNat x - 1))
  else if 184.0 ≤ x.abs then
    if x < 0 then (if Binary64.floor x * 0.5 == Binary64.floor (x * 0.5) then 0.0 else -0.0)
    else x * 8.98846567431158e307
  else approximate x

end Gamma

end SciCalc
