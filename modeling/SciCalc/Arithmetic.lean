/-
# SciCalc.Arithmetic -- operations that answer with a value or a fault

Each operation of the calculator on doubles.  An argument outside the domain is
a fault, a result too large for a double is a fault, and neither becomes a value
in silence.  Trigonometry takes the unit of angles as a parameter.

The tangent in degrees is decided before any rounding: the angle is brought into
`[0, 180]` by an exact remainder, and the tangent is undefined when that
remainder is ninety.
-/
import SciCalc.AngleMode
import SciCalc.Elementary
import SciCalc.Func

namespace SciCalc

set_option autoImplicit false

namespace Arithmetic

/-- A result, or the fault that it is infinite. -/
def bounded (operation : Text) (v : Float) : Except Fault Float :=
  if v.isInf then .error (.tooLarge (.result operation)) else .ok v

/-! ## The four operations and powers -/

/-- The sum. -/
def add (a b : Float) : Except Fault Float := bounded "addition" (a + b)

/-- The difference. -/
def sub (a b : Float) : Except Fault Float := bounded "soustraction" (a - b)

/-- The product. -/
def mul (a b : Float) : Except Fault Float := bounded "multiplication" (a * b)

/-- The quotient; a divisor of zero, of either sign, is a fault. -/
def div (a b : Float) : Except Fault Float :=
  if b == 0 then .error .divisionByZero else bounded "division" (a / b)

/-- The power. -/
def pow (lib : Elementary) (a b : Float) : Except Fault Float :=
  let r := lib.pow a b
  if r.isNaN then .error (.outOfDomain (.invalidPower a b))
  else if r.isInf then .error (.tooLarge (.power a b))
  else .ok r

/-- So many hundredths of a value. -/
def percent (v hundredths : Float) : Except Fault Float :=
  bounded "pourcentage" (v * hundredths / 100.0)

/-- A binary operator on two operands. -/
def binary (lib : Elementary) : Operator → Float → Float → Except Fault Float
  | .add => add
  | .sub => sub
  | .mul => mul
  | .div => div
  | .pow => pow lib

/-! ## Roots and factorials -/

/-- The square root. -/
def sqrt (v : Float) : Except Fault Float :=
  if v < 0 then .error (.outOfDomain .squareRootOfNegative) else .ok v.sqrt

/-- The cube root, odd as the cube is. -/
def cbrt (lib : Elementary) (v : Float) : Float :=
  if 0 ≤ v then lib.pow v (1.0 / 3.0) else -lib.pow (-v) (1.0 / 3.0)

/-- `1 · 2 · … · n`, one multiplication after the other. -/
def product : Nat → Float
  | 0 => 1.0
  | n + 1 => product n * Float.ofNat (n + 1)

/-- The factorial of a whole number up to `factorialMax`. -/
def factorial (v : Float) : Except Fault Float :=
  if v < 0 then .error (.outOfDomain .factorialOfNegative)
  else if v != Binary64.floor v then .error (.outOfDomain (.factorialOfFraction v))
  else if factorialMax < v then .error (.tooLarge (.factorial v))
  else .ok (product (Binary64.truncateToNat v))

/-! ## Trigonometry -/

/-- The sine. -/
def sin (lib : Elementary) (mode : AngleMode) (v : Float) : Float := lib.sin (mode.toRadians v)

/-- The cosine. -/
def cos (lib : Elementary) (mode : AngleMode) (v : Float) : Float := lib.cos (mode.toRadians v)

/-- The tangent of an angle in radians. -/
def tanRadians (lib : Elementary) (v : Float) : Except Fault Float :=
  let r := lib.tan v
  if r.isInf then .error (.outOfDomain .tangentUndefinedHere) else .ok r

/-- The tangent. -/
def tan (lib : Elementary) : AngleMode → Float → Except Fault Float
  | .degrees, v =>
    let r := Binary64.leastRemainder v 180
    if r == 90 then .error (.outOfDomain (.tangentUndefinedAt v))
    else tanRadians lib (AngleMode.radiansOfDegrees r)
  | .radians, v => tanRadians lib v

/-- Whether a double is a sine: from -1 to 1. -/
def isSine (v : Float) : Bool := -1 ≤ v && v ≤ 1

/-- The arc sine. -/
def asin (lib : Elementary) (mode : AngleMode) (v : Float) : Except Fault Float :=
  if isSine v then .ok (mode.ofRadians (lib.asin v)) else .error (.outOfDomain .arcsine)

/-- The arc cosine. -/
def acos (lib : Elementary) (mode : AngleMode) (v : Float) : Except Fault Float :=
  if isSine v then .ok (mode.ofRadians (lib.acos v)) else .error (.outOfDomain .arccosine)

/-- The arc tangent. -/
def atan (lib : Elementary) (mode : AngleMode) (v : Float) : Float := mode.ofRadians (lib.atan v)

/-! ## Logarithms and exponentials -/

/-- The logarithm of base ten. -/
def log10 (lib : Elementary) (v : Float) : Except Fault Float :=
  if v ≤ 0 then .error (.outOfDomain .logarithm) else .ok (lib.log10 v)

/-- The natural logarithm. -/
def ln (lib : Elementary) (v : Float) : Except Fault Float :=
  if v ≤ 0 then .error (.outOfDomain .naturalLogarithm) else .ok (lib.ln v)

/-- The logarithm of any base. -/
def logBase (lib : Elementary) (v base : Float) : Except Fault Float :=
  if v ≤ 0 then .error (.outOfDomain .logarithm)
  else if base ≤ 0 || base == 1 then .error (.outOfDomain .logarithmBase)
  else .ok (lib.ln v / lib.ln base)

/-- The exponential. -/
def exp (lib : Elementary) (v : Float) : Except Fault Float := bounded "exponentielle" (lib.exp v)

/-- The exponential of base two. -/
def exp2 (lib : Elementary) (v : Float) : Except Fault Float :=
  bounded "exponentielle base 2" (lib.exp2 v)

/-- The exponential of base ten. -/
def exp10 (lib : Elementary) (v : Float) : Except Fault Float :=
  bounded "exponentielle base 10" (lib.pow 10.0 v)

/-- The hyperbolic sine. -/
def sinh (lib : Elementary) (v : Float) : Except Fault Float :=
  bounded "sinus hyperbolique" (lib.sinh v)

/-- The hyperbolic cosine. -/
def cosh (lib : Elementary) (v : Float) : Except Fault Float :=
  bounded "cosinus hyperbolique" (lib.cosh v)

/-- The gamma function; the whole numbers up to zero are its poles. -/
def gamma (lib : Elementary) (v : Float) : Except Fault Float :=
  if v ≤ 0 && v == Binary64.floor v then .error (.outOfDomain (.gammaPole v))
  else
    let r := lib.gamma v
    if r.isNaN then .error (.outOfDomain (.gammaUndefinedAt v)) else bounded "gamma" r

/-- A quotient that is refused for a divisor of zero. -/
theorem div_zero (a b : Float) (h : (b == 0) = true) : div a b = .error .divisionByZero := by
  simp [div, h]

end Arithmetic

namespace Func

/-- The value of a function, before the fault is put under its name. -/
def raw (lib : Elementary) (mode : AngleMode) : Func → Float → Except Fault Float
  | sin, v => .ok (Arithmetic.sin lib mode v)
  | cos, v => .ok (Arithmetic.cos lib mode v)
  | tan, v => Arithmetic.tan lib mode v
  | asin, v => Arithmetic.asin lib mode v
  | acos, v => Arithmetic.acos lib mode v
  | atan, v => .ok (Arithmetic.atan lib mode v)
  | log, v => Arithmetic.log10 lib v
  | ln, v => Arithmetic.ln lib v
  | exp, v => Arithmetic.exp lib v
  | sqrt, v => Arithmetic.sqrt v
  | abs, v => .ok v.abs
  | floor, v => .ok (Binary64.floor v)
  | ceil, v => .ok (Binary64.ceil v)
  | round, v => .ok (Binary64.round v)

/-- The value of a function; its name is put around a fault. -/
def apply (lib : Elementary) (mode : AngleMode) (f : Func) (v : Float) : Except Fault Float :=
  (f.raw lib mode v).mapError (.within f.name)

/-- The unit of angles matters to the trigonometric functions only. -/
theorem apply_mode (lib : Elementary) (m m' : AngleMode) (f : Func) (v : Float)
    (h : f.isTrigonometric = false) : f.apply lib m v = f.apply lib m' v := by
  cases f <;> first | rfl | simp [isTrigonometric] at h

end Func

namespace Arithmetic

/-- The factorial written after its operand; its name is put around a fault. -/
def postfixFactorial (v : Float) : Except Fault Float :=
  (factorial v).mapError (.within "factorielle")

end Arithmetic

end SciCalc
