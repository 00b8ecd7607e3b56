/-
# SciCalc.Keypad -- the keys that write into an entry

Every key inserts one text, in one of four ways (`Key.style`): a digit where it
is, a sign with a space on either side, a closing sign right after its operand,
and whatever begins an operand set off by a space from an operand before it.
Only the white space around a text depends on what the entry held.
-/
import SciCalc.Func
import SciCalc.Operator
import SciCalc.Piece

namespace SciCalc

set_option autoImplicit false

/-- A key that inserts a text. -/
inductive Key where
  | digit (d : Fin 10)
  | point
  | operator (o : Operator)
  | openGroup
  | closeGroup
  | factorial
  | constant (k : Constant)
  | function (f : Func)
  deriving DecidableEq, Repr

/-- How a text goes into an entry. -/
inductive Key.Style where
  /-- As it is. -/
  | bare
  /-- With a space on either side. -/
  | spaced
  /-- Right after what stands before it. -/
  | attached
  /-- Set off by a space from an operand before it. -/
  | leading
  deriving DecidableEq, Repr

namespace Key

/-- The text that a key inserts. -/
def text : Key → Text
  | digit d => [Nat.digitChar d]
  | point => ['.']
  | operator o => [o.sign]
  | openGroup => ['(']
  | closeGroup => [')']
  | factorial => ['!']
  | constant .pi => "pi"
  | constant .euler => "e"
  | function f => f.name ++ ['(']

/-- How the text of a key goes into an entry. -/
def style : Key → Style
  | digit _ => .bare
  | point => .bare
  | operator _ => .spaced
  | openGroup => .leading
  | closeGroup => .attached
  | factorial => .attached
  | constant _ => .leading
  | function _ => .leading

/-- What is written on a key. -/
def label : Key → Text
  | digit d => [Nat.digitChar d]
  | point => ['.']
  | operator .mul => ['×']
  | operator .div => ['÷']
  | operator o => [o.sign]
  | openGroup => ['(']
  | closeGroup => [')']
  | factorial => ['!']
  | constant .pi => ['π']
  | constant .euler => ['e']
  | function .sqrt => ['√']
  | function f => f.name

/-- All the keys that insert a text. -/
def all : List Key :=
  (List.finRange 10).map digit
    ++ [point, operator .add, operator .sub, operator .mul, operator .div, operator .pow,
      openGroup, closeGroup, factorial, constant .pi, constant .euler]
    ++ Func.all.map function

/-- The key with a given label. -/
def ofLabel? (t : Text) : Option Key := all.find? fun k => k.label == t

theorem text_ne_nil (k : Key) : k.text ≠ [] := by
  rcases k with d | _ | o | _ | _ | _ | k | f
  case constant => cases k <;> decide
  case function => simp [text]
  all_goals simp [text]

end Key

end SciCalc
