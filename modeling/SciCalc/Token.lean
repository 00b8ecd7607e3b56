/-
# SciCalc.Token -- the tokens of an expression

A number token carries its sign when a minus was written right before it where
an operand could begin.  A name is any run of letters, known or not.  `negate`
is the minus sign before a group or a call; it is never written in an entry but
stands in postfix lists.

`Token.text` writes one token and `Token.listText` a list of tokens with a space
between neighbours.
-/
import SciCalc.Number
import SciCalc.Operator

namespace SciCalc

set_option autoImplicit false

/-- A token. -/
inductive Token where
  | number (value : Float)
  | name (word : Text)
  | operator (o : Operator)
  | factorial
  | negate
  | openGroup
  | closeGroup
  deriving DecidableEq

namespace Token

/-- The written form of a token. -/
def text : Token → Text
  | number v => Number.text v
  | name w => w
  | operator o => [o.sign]
  | factorial => ['!']
  | negate => "neg"
  | openGroup => ['(']
  | closeGroup => [')']

/-- The written form of a list of tokens. -/
def listText (ts : List Token) : Text := Text.join [' '] (ts.map text)

/-- Whether a token ends an operand. -/
def closesValue : Token → Bool
  | number _ => true
  | closeGroup => true
  | factorial => true
  | _ => false

/-- Whether a token begins an operand. -/
def opensValue : Token → Bool
  | number _ => true
  | name _ => true
  | openGroup => true
  | _ => false

@[simp] theorem listText_nil : listText [] = [] := rfl

@[simp] theorem listText_singleton (t : Token) : listText [t] = t.text := rfl

end Token

end SciCalc
