/-
# SciCalc.Expr.Written -- a tree in full parentheses

Every binary node stands between parentheses, and so does a number with a minus
sign, so the text has one reading.  The operand of a factorial gets parentheses
of its own only where it has none.
-/
import SciCalc.Expr

namespace SciCalc

set_option autoImplicit false

namespace Expr

/-- A text between parentheses. -/
def grouped (t : Text) : Text := '(' :: t ++ [')']

/-- A number, between parentheses if it is below zero. -/
def numberText (v : Float) : Text := if v < 0 then grouped (Number.text v) else Number.text v

/-- Whether a factorial can follow the text of a tree as it is. -/
def isAtom : Expr → Bool
  | number _ => true
  | factorial _ => true
  | call _ _ => true
  | _ => false

/-- The text of a tree, every binary node between parentheses. -/
def text : Expr → Text
  | number v => numberText v
  | negate x => '-' :: grouped x.text
  | factorial x =>
    let t := x.text
    (if x.isAtom || t.head? == some '(' then t else grouped t) ++ ['!']
  | call f x => f.name ++ grouped x.text
  | binary o a b => grouped (a.text ++ ' ' :: o.sign :: ' ' :: b.text)

@[simp] theorem text_number (v : Float) : (number v).text = numberText v := rfl

end Expr

end SciCalc
