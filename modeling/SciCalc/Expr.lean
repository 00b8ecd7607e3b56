/-
# SciCalc.Expr -- expression trees

A number that a minus sign was written right before is one leaf; `negate` is the
minus sign before a group or a call.  `Expr.postorder` lists a tree as postfix
tokens, operands before what is applied to them, and `Expr.height` counts the
nodes on the longest path.
-/
import SciCalc.Func
import SciCalc.Token

namespace SciCalc

set_option autoImplicit false

/-- An expression. -/
inductive Expr where
  | number (value : Float)
  | negate (x : Expr)
  | factorial (x : Expr)
  | call (f : Func) (x : Expr)
  | binary (o : Operator) (a b : Expr)
  deriving DecidableEq

namespace Expr

/-- The number of nodes on the longest path from the root to a leaf. -/
def height : Expr → Nat
  | number _ => 1
  | negate x => x.height + 1
  | factorial x => x.height + 1
  | call _ x => x.height + 1
  | binary _ a b => max a.height b.height + 1

/-- The tree as a postfix list. -/
def postorder : Expr → List Token
  | number v => [.number v]
  | negate x => x.postorder ++ [.negate]
  | factorial x => x.postorder ++ [.factorial]
  | call f x => x.postorder ++ [.name f.name]
  | binary o a b => a.postorder ++ b.postorder ++ [.operator o]

/-- Whether a tree calls no function that hangs on the unit of angles. -/
def modeFree : Expr → Bool
  | number _ => true
  | negate x => x.modeFree
  | factorial x => x.modeFree
  | call f x => !f.isTrigonometric && x.modeFree
  | binary _ a b => a.modeFree && b.modeFree

/-- Whether every leaf is a finite number. -/
def finiteLeaves : Expr → Bool
  | number v => v.isFinite
  | negate x => x.finiteLeaves
  | factorial x => x.finiteLeaves
  | call _ x => x.finiteLeaves
  | binary _ a b => a.finiteLeaves && b.finiteLeaves

theorem one_le_height (e : Expr) : 1 ≤ e.height := by
  cases e <;> simp [height]

theorem postorder_ne_nil (e : Expr) : e.postorder ≠ [] := by
  cases e <;> simp [postorder]

end Expr

end SciCalc
