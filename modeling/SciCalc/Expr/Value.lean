/-
# SciCalc.Expr.Value -- the value of a tree

Operands are evaluated before what is applied to them and left before right, so
the first fault on that way is the answer.  A call puts its name around a fault
of its argument as well as around its own; a factorial names only its own.
-/
import SciCalc.Arithmetic
import SciCalc.Expr

namespace SciCalc

set_option autoImplicit false

namespace Expr

/-- The value of a tree in a unit of angles. -/
def value (lib : Elementary) (mode : AngleMode) : Expr → Except Fault Float
  | number v => .ok v
  | negate x => do
    let v ← x.value lib mode
    return -v
  | factorial x => do
    let v ← x.value lib mode
    Arithmetic.postfixFactorial v
  | call f x => do
    let v ← (x.value lib mode).mapError (.within f.name)
    f.apply lib mode v
  | binary o a b => do
    let v ← a.value lib mode
    let w ← b.value lib mode
    Arithmetic.binary lib o v w

@[simp] theorem value_number (lib : Elementary) (mode : AngleMode) (v : Float) :
    (number v).value lib mode = .ok v := rfl

end Expr

end SciCalc
