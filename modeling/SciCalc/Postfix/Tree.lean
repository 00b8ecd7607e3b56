/-
# SciCalc.Postfix.Tree -- from a postfix list to a tree

Each token takes its operands from a stack of trees and puts its node back.  A
tree lies on the stack together with its height, so a node that would be too
high is refused before it is made.
-/
import SciCalc.Expr
import SciCalc.Fault

namespace SciCalc

set_option autoImplicit false

namespace Postfix

/-- Trees with their heights, the latest first. -/
abbrev Stack := List (Expr × Nat)

namespace Stack

/-- The height of a node over operands of a given height, if the limit admits it. -/
def grow (maxHeight height : Nat) : Except Fault Nat :=
  if maxHeight < height + 1 then .error (.exceeded (.height maxHeight)) else .ok (height + 1)

/-- Replaces the latest tree by a node over it. -/
def applyOne (maxHeight : Nat) (t : Token) (node : Expr → Expr) : Stack → Except Fault Stack
  | [] => .error (.malformed (.missingOperandFor t))
  | (x, h) :: rest => do
    let h ← grow maxHeight h
    return (node x, h) :: rest

/-- Replaces the two latest trees by a node over them. -/
def applyTwo (maxHeight : Nat) (t : Token) (node : Expr → Expr → Expr) :
    Stack → Except Fault Stack
  | (b, hb) :: (a, ha) :: rest => do
    let h ← grow maxHeight (max ha hb)
    return (node a b, h) :: rest
  | _ => .error (.malformed (.missingOperandFor t))

/-- Reads one token of a postfix list. -/
def step (maxHeight : Nat) (st : Stack) (t : Token) : Except Fault Stack :=
  match t with
  | .number v => .ok ((.number v, 1) :: st)
  | .operator o => st.applyTwo maxHeight t (.binary o)
  | .negate => st.applyOne maxHeight t .negate
  | .factorial => st.applyOne maxHeight t .factorial
  | .name w =>
    match Func.ofName? w with
    | none => .error (.unsupported (.function w))
    | some f => st.applyOne maxHeight t (.call f)
  | .openGroup => .error (.malformed .groupInPostfix)
  | .closeGroup => .error (.malformed .groupInPostfix)

/-- The one tree that must be left. -/
def only : Stack → Except Fault Expr
  | [] => .error (.malformed .emptyExpression)
  | [(e, _)] => .ok e
  | _ => .error (.malformed .missingOperator)

end Stack

/-- The tree of a postfix list; a node higher than `maxHeight` is refused. -/
def tree (maxHeight : Nat) (ts : List Token) : Except Fault Expr := do
  let st ← ts.foldlM (Stack.step maxHeight) []
  st.only

end Postfix

end SciCalc
