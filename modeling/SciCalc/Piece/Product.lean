/-
# SciCalc.Piece.Product -- products without a sign, and the normal form of an entry

Two neighbouring pieces are factors of a product when the first can end an
operand and the second begin one (`Piece.multiplies`): a digit and a word, a
closing parenthesis and a digit, the sign of the factorial and a parenthesis,
and so on.  A word before a parenthesis is a call, unless it names a constant.

`normalize` is the normal form of a raw entry: its pieces without root signs,
written one after another with a `*` between factors and every constant as a
numeral.  It never fails.
-/
import SciCalc.Piece.Roots

namespace SciCalc

set_option autoImplicit false

namespace Piece

/-- Whether `b` multiplies `a` when it follows without a sign. -/
def multiplies (a b : Piece) : Bool :=
  match a, b with
  | digit _, word _ => true
  | word _, digit _ => true
  | digit _, other c => c == '('
  | other c, digit _ => c == ')' || c == '!'
  | other c, word _ => c == ')' || c == '!'
  | other c, other d => (c == ')' || c == '!') && d == '('
  | word _, other c => c == '(' && a.isConstant
  | word _, word _ => a.isConstant || b.isConstant
  | _, _ => false

/-- What stands between two neighbours. -/
def between (a b : Piece) : Text := if a.multiplies b then ['*'] else []

/-- Pieces written one after another, with a `*` between factors. -/
def write : List Piece → Text
  | [] => []
  | [p] => p.text
  | p :: q :: rest => p.text ++ between p q ++ write (q :: rest)

@[simp] theorem write_nil : write [] = [] := rfl

@[simp] theorem write_singleton (p : Piece) : write [p] = p.text := rfl

end Piece

/-- The normal form of a raw entry. -/
def normalize (t : Text) : Text := Piece.write (Piece.wrapRoots (Piece.cut t))

@[simp] theorem normalize_nil : normalize [] = [] := rfl

end SciCalc
