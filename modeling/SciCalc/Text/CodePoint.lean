/-
# SciCalc.Text.CodePoint -- sets of code points as lists of ranges

The character classes of the Unicode standard that the calculator consults are
stored as ascending lists of closed ranges of code points.  Membership is
decided by looking for a range that holds the code point.
-/
import SciCalc.Text

namespace SciCalc

set_option autoImplicit false

/-- A set of code points: closed ranges, lowest first. -/
abbrev CodePoints := List (Nat × Nat)

namespace CodePoints

/-- Whether a code point lies in one of the ranges. -/
def holds (ranges : CodePoints) (n : Nat) : Bool :=
  ranges.any fun r => r.1 ≤ n && n ≤ r.2

theorem holds_iff (ranges : CodePoints) (n : Nat) :
    ranges.holds n = true ↔ ∃ r ∈ ranges, r.1 ≤ n ∧ n ≤ r.2 := by
  simp [holds]

end CodePoints

end SciCalc
