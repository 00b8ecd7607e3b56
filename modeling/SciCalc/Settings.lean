/-
# SciCalc.Settings -- the unit of angles and the limits of an evaluation

Three limits keep an evaluation small: the number of tokens, the number of
parentheses open at once, and the height of the tree.  A limit can be set to
any number; what is stored is the nearest one between one and a ceiling.
-/
import SciCalc.AngleMode

namespace SciCalc

set_option autoImplicit false

/-- The settings of an evaluation. -/
structure Settings where
  mode : AngleMode := .degrees
  maxTokens : Nat := 4096
  maxNesting : Nat := 64
  maxHeight : Nat := 512
  deriving DecidableEq, Repr, Inhabited

namespace Settings

/-- The highest limit on the number of tokens. -/
def tokensCeiling : Nat := 65536

/-- The highest limit on open parentheses. -/
def nestingCeiling : Nat := 512

/-- The highest limit on the height of the tree. -/
def heightCeiling : Nat := 1024

/-- The number nearest to `n` from one to `ceiling`. -/
def clamp (ceiling n : Nat) : Nat := max 1 (min n ceiling)

/-- The default settings with a unit of angles. -/
def withMode (mode : AngleMode) : Settings := { mode := mode }

/-- Changes the unit of angles. -/
def setMode (s : Settings) (mode : AngleMode) : Settings := { s with mode := mode }

/-- Changes the limit on the number of tokens. -/
def setMaxTokens (s : Settings) (n : Nat) : Settings :=
  { s with maxTokens := clamp tokensCeiling n }

/-- Changes the limit on open parentheses. -/
def setMaxNesting (s : Settings) (n : Nat) : Settings :=
  { s with maxNesting := clamp nestingCeiling n }

/-- Changes the limit on the height of the tree. -/
def setMaxHeight (s : Settings) (n : Nat) : Settings :=
  { s with maxHeight := clamp heightCeiling n }

theorem one_le_clamp (ceiling n : Nat) : 1 ≤ clamp ceiling n := Nat.le_max_left _ _

theorem clamp_le (ceiling n : Nat) (h : 1 ≤ ceiling) : clamp ceiling n ≤ ceiling :=
  Nat.max_le.2 ⟨h, Nat.min_le_right _ _⟩

/-- A number within the bounds is stored as it is. -/
theorem clamp_of_mem (ceiling n : Nat) (low : 1 ≤ n) (high : n ≤ ceiling) :
    clamp ceiling n = n := by
  simp [clamp, Nat.min_eq_left high, Nat.max_eq_right low]

end Settings

end SciCalc
