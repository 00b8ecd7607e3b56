/-
# SciCalc.Operator -- the five binary operators

Addition and subtraction bind least, multiplication and division more, powers
most.  All five group to the left.
-/
import SciCalc.Text

namespace SciCalc

set_option autoImplicit false

/-- A binary operator. -/
inductive Operator where
  | add
  | sub
  | mul
  | div
  | pow
  deriving DecidableEq, Repr, Inhabited

namespace Operator

/-- The sign of an operator. -/
def sign : Operator → Char
  | add => '+'
  | sub => '-'
  | mul => '*'
  | div => '/'
  | pow => '^'

/-- How much an operator binds. -/
def precedence : Operator → Nat
  | add => 1
  | sub => 1
  | mul => 2
  | div => 2
  | pow => 3

theorem sign_injective (a b : Operator) (same : a.sign = b.sign) : a = b := by
  cases a <;> cases b <;> first | rfl | (revert same; decide)

theorem precedence_pos (o : Operator) : 1 ≤ o.precedence := by cases o <;> decide

theorem precedence_le (o : Operator) : o.precedence ≤ 3 := by cases o <;> decide

end Operator

end SciCalc
