/-
# SciCalc.Func -- the functions an expression can call

Fourteen functions of one argument have a name in expressions.  `Func.ofName?`
finds a function by its exact name and `Func.name` gives the name back; the two
are inverse to each other (`Func.ofName?_eq_some_iff`).
-/
import SciCalc.Text

namespace SciCalc

set_option autoImplicit false

/-- A function that can be called in an expression. -/
inductive Func where
  | sin
  | cos
  | tan
  | asin
  | acos
  | atan
  | log
  | ln
  | exp
  | sqrt
  | abs
  | floor
  | ceil
  | round
  deriving DecidableEq, Repr, Inhabited

namespace Func

/-- All the functions. -/
def all : List Func :=
  [sin, cos, tan, asin, acos, atan, log, ln, exp, sqrt, abs, floor, ceil, round]

/-- The name of a function, in lower case. -/
def name : Func → Text
  | sin => "sin"
  | cos => "cos"
  | tan => "tan"
  | asin => "asin"
  | acos => "acos"
  | atan => "atan"
  | log => "log"
  | ln => "ln"
  | exp => "exp"
  | sqrt => "sqrt"
  | abs => "abs"
  | floor => "floor"
  | ceil => "ceil"
  | round => "round"

/-- The function with a given name. -/
def ofName? (t : Text) : Option Func := all.find? fun f => f.name == t

/-- Whether the value of a function hangs on the unit of angles. -/
def isTrigonometric : Func → Bool
  | sin => true
  | cos => true
  | tan => true
  | asin => true
  | acos => true
  | atan => true
  | _ => false

theorem ofName?_name (f : Func) : ofName? f.name = some f := by
  cases f <;> rfl

theorem ofName?_eq_some_iff (t : Text) (f : Func) : ofName? t = some f ↔ t = f.name := by
  constructor
  · intro h
    have := List.find?_some h
    exact (beq_iff_eq.1 this).symm
  · rintro rfl
    exact ofName?_name f

theorem name_injective (f g : Func) (same : f.name = g.name) : f = g := by
  have h := ofName?_name f
  rw [same, ofName?_name] at h
  exact (Option.some.inj h).symm

end Func

end SciCalc
