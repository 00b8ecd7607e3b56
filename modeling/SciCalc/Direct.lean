/-
# SciCalc.Direct -- one operation without an expression

Two numbers and the sign of an operation, or one number and the name of a
function, with no entry to read.  There are seven operations here, a percentage
and a logarithm of any base among them, and twenty-three functions: those an
expression can call and nine more.  White space around a sign or a name is
dropped, and a name may be written in any case.

These are tables of their own.  Where they name an operator or a function of
expressions they agree with it (`Operation.apply_ofOperator`,
`UnaryFunction.apply_ofExpressions`).
-/
import SciCalc.Arithmetic

namespace SciCalc

set_option autoImplicit false

namespace Direct

/-- An operation on two numbers. -/
inductive Operation where
  | add
  | sub
  | mul
  | div
  | pow
  | percent
  | logarithm
  deriving DecidableEq, Repr

namespace Operation

/-- The signs of an operation. -/
def signs : Operation → List Text
  | add => [['+']]
  | sub => [['-'], ['−']]
  | mul => [['*'], ['×']]
  | div => [['/'], ['÷']]
  | pow => [['^'], ['*', '*']]
  | percent => [['%']]
  | logarithm => ["log"]

/-- All the operations. -/
def all : List Operation := [add, sub, mul, div, pow, percent, logarithm]

/-- The operation with a given sign. -/
def ofSign? (t : Text) : Option Operation := all.find? fun o => o.signs.contains t

/-- The result of an operation. -/
def apply (lib : Elementary) : Operation → Float → Float → Except Fault Float
  | add, a, b => Arithmetic.add a b
  | sub, a, b => Arithmetic.sub a b
  | mul, a, b => Arithmetic.mul a b
  | div, a, b => Arithmetic.div a b
  | pow, a, b => Arithmetic.pow lib a b
  | percent, a, b => Arithmetic.percent a b
  | logarithm, a, b => Arithmetic.logBase lib a b

/-- The operation that an operator of expressions is. -/
def ofOperator : Operator → Operation
  | .add => add
  | .sub => sub
  | .mul => mul
  | .div => div
  | .pow => pow

/-- **An operator of expressions has the result that it has there.** -/
theorem apply_ofOperator (lib : Elementary) (o : Operator) (a b : Float) :
    (ofOperator o).apply lib a b = Arithmetic.binary lib o a b := by
  cases o <;> rfl

end Operation

/-- A function of one number. -/
inductive UnaryFunction where
  | sin
  | cos
  | tan
  | asin
  | acos
  | atan
  | log
  | ln
  | exp
  | exp2
  | exp10
  | sqrt
  | cbrt
  | abs
  | negate
  | factorial
  | floor
  | ceil
  | round
  | sinh
  | cosh
  | tanh
  | gamma
  deriving DecidableEq, Repr

namespace UnaryFunction

/-- The name of a function. -/
def name : UnaryFunction → Text
  | sin => "sin"
  | cos => "cos"
  | tan => "tan"
  | asin => "asin"
  | acos => "acos"
  | atan => "atan"
  | log => "log"
  | ln => "ln"
  | exp => "exp"
  | exp2 => "exp2"
  | exp10 => "exp10"
  | sqrt => "sqrt"
  | cbrt => "cbrt"
  | abs => "abs"
  | negate => "neg"
  | factorial => "factorial"
  | floor => "floor"
  | ceil => "ceil"
  | round => "round"
  | sinh => "sinh"
  | cosh => "cosh"
  | tanh => "tanh"
  | gamma => "gamma"

/-- All the functions. -/
def all : List UnaryFunction :=
  [sin, cos, tan, asin, acos, atan, log, ln, exp, exp2, exp10, sqrt, cbrt, abs, negate, factorial,
    floor, ceil, round, sinh, cosh, tanh, gamma]

/-- The function with a given name. -/
def ofName? (t : Text) : Option UnaryFunction := all.find? fun f => f.name == t

/-- The value of a function, before the fault is put under its name. -/
def raw (lib : Elementary) (mode : AngleMode) : UnaryFunction → Float → Except Fault Float
  | sin, v => .ok (Arithmetic.sin lib mode v)
  | cos, v => .ok (Arithmetic.cos lib mode v)
  | tan, v => Arithmetic.tan lib mode v
  | asin, v => Arithmetic.asin lib mode v
  | acos, v => Arithmetic.acos lib mode v
  | atan, v => .ok (Arithmetic.atan lib mode v)
  | log, v => Arithmetic.log10 lib v
  | ln, v => Arithmetic.ln lib v
  | exp, v => Arithmetic.exp lib v
  | exp2, v => Arithmetic.exp2 lib v
  | exp10, v => Arithmetic.exp10 lib v
  | sqrt, v => Arithmetic.sqrt v
  | cbrt, v => .ok (Arithmetic.cbrt lib v)
  | abs, v => .ok v.abs
  | negate, v => .ok (-v)
  | factorial, v => Arithmetic.factorial v
  | floor, v => .ok (Binary64.floor v)
  | ceil, v => .ok (Binary64.ceil v)
  | round, v => .ok (Binary64.round v)
  | sinh, v => Arithmetic.sinh lib v
  | cosh, v => Arithmetic.cosh lib v
  | tanh, v => .ok (lib.tanh v)
  | gamma, v => Arithmetic.gamma lib v

/-- The value of a function; its name is put around a fault. -/
def apply (lib : Elementary) (mode : AngleMode) (f : UnaryFunction) (v : Float) :
    Except Fault Float :=
  (f.raw lib mode v).mapError (.within f.name)

/-- The function that one of expressions is. -/
def ofExpressions : Func → UnaryFunction
  | .sin => sin
  | .cos => cos
  | .tan => tan
  | .asin => asin
  | .acos => acos
  | .atan => atan
  | .log => log
  | .ln => ln
  | .exp => exp
  | .sqrt => sqrt
  | .abs => abs
  | .floor => floor
  | .ceil => ceil
  | .round => round

theorem name_ofExpressions (f : Func) : (ofExpressions f).name = f.name := by cases f <;> rfl

theorem raw_ofExpressions (lib : Elementary) (mode : AngleMode) (f : Func) (v : Float) :
    (ofExpressions f).raw lib mode v = f.raw lib mode v := by
  cases f <;> rfl

/-- **A function of expressions has the value that it has there**, and the name around its fault. -/
theorem apply_ofExpressions (lib : Elementary) (mode : AngleMode) (f : Func) (v : Float) :
    (ofExpressions f).apply lib mode v = f.apply lib mode v := by
  rw [apply, raw_ofExpressions, name_ofExpressions, Func.apply]

end UnaryFunction

/-- The result of the operation with a given sign. -/
def applyOperator (lib : Elementary) (a b : Float) (sign : Text) : Except Fault Float :=
  match Operation.ofSign? sign.trim with
  | some o => o.apply lib a b
  | none => .error (.unsupported (.operator sign.trim))

/-- The value of the function with a given name. -/
def applyFunction (lib : Elementary) (mode : AngleMode) (v : Float) (name : Text) :
    Except Fault Float :=
  match UnaryFunction.ofName? name.trim.lower with
  | some f => f.apply lib mode v
  | none => .error (.unsupported (.function name.trim.lower))

end Direct

end SciCalc
