/-
# SciCalc.Elementary -- the elementary functions

The calculator takes the functions of analysis from outside: every operation
that needs one of them has the whole collection as a parameter.  What is proved
about the calculator is then proved for any such collection, or under stated
assumptions on it, and `Elementary.machine` is the one that runs.
-/
import SciCalc.Gamma

namespace SciCalc

set_option autoImplicit false

/-- A collection of elementary functions on doubles. -/
structure Elementary where
  sin : Float → Float
  cos : Float → Float
  tan : Float → Float
  asin : Float → Float
  acos : Float → Float
  atan : Float → Float
  exp : Float → Float
  exp2 : Float → Float
  ln : Float → Float
  log10 : Float → Float
  sinh : Float → Float
  cosh : Float → Float
  tanh : Float → Float
  pow : Float → Float → Float
  gamma : Float → Float

/-- The functions of the machine. -/
def Elementary.machine : Elementary where
  sin := Float.sin
  cos := Float.cos
  tan := Float.tan
  asin := Float.asin
  acos := Float.acos
  atan := Float.atan
  exp := Float.exp
  exp2 := Float.exp2
  ln := Float.log
  log10 := Float.log10
  sinh := Float.sinh
  cosh := Float.cosh
  tanh := Float.tanh
  pow := Float.pow
  gamma := Gamma.value

end SciCalc
