/-
# SciCalc.AngleMode -- degrees or radians

The unit in which angles are given to the trigonometric functions and returned
by their inverses.  It is always a parameter of a calculation.  Degrees are
turned into radians by one multiplication, and back by one multiplication.
-/
import SciCalc.Fault
import SciCalc.Text.Blank
import SciCalc.Text.LowerCase

namespace SciCalc

set_option autoImplicit false

/-- The unit of angles. -/
inductive AngleMode where
  | degrees
  | radians
  deriving DecidableEq, Repr, Inhabited

namespace AngleMode

/-- Degrees to radians. -/
def radiansOfDegrees (v : Float) : Float := v * (Binary64.pi / 180.0)

/-- Radians to degrees. -/
def degreesOfRadians (v : Float) : Float := v * (180.0 / Binary64.pi)

/-- An angle in this unit, in radians. -/
def toRadians : AngleMode → Float → Float
  | degrees, v => radiansOfDegrees v
  | radians, v => v

/-- An angle in radians, in this unit. -/
def ofRadians : AngleMode → Float → Float
  | degrees, v => degreesOfRadians v
  | radians, v => v

/-- An angle in the first unit, in the second one. -/
def convert (v : Float) : AngleMode → AngleMode → Float
  | degrees, radians => radiansOfDegrees v
  | radians, degrees => degreesOfRadians v
  | _, _ => v

/-- The name of the unit. -/
def text : AngleMode → Text
  | degrees => "degrés"
  | radians => "radians"

/-- The names under which each unit is known, in lower case. -/
def names : AngleMode → List Text
  | degrees => ["degree", "degrees", "deg", "degre", "degres", "degré", "degrés"]
  | radians => ["radian", "radians", "rad"]

/-- Reads the name of a unit, whatever its case and the white space around it. -/
def read (t : Text) : Except Fault AngleMode :=
  let word := t.trim.lower
  if word ∈ names degrees then .ok degrees
  else if word ∈ names radians then .ok radians
  else .error (.unsupported (.angleMode word))

@[simp] theorem convert_self (v : Float) (m : AngleMode) : convert v m m = v := by
  cases m <;> rfl

end AngleMode

end SciCalc
