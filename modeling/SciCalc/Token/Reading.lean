/-
# SciCalc.Token.Reading -- the tokens of a text

`Token.read` turns a text into tokens, lexeme by lexeme, and stops at the first
lexeme that is none:

* white space separates and is dropped;
* a minus sign right before a numeral belongs to it unless an operand has just
  ended;
* two stars are one power sign, and the root sign is the name of the square root;
* a word is a name in lower case, and any other letter is a name by itself;
* a numeral is digits, or digits, a point and digits, and must be finite.
-/
import SciCalc.Fault
import SciCalc.Func
import SciCalc.Lexeme
import SciCalc.Text.Blank
import SciCalc.Text.Letter

namespace SciCalc

set_option autoImplicit false

namespace Token

/-- The value of a numeral. -/
def readNumeral (digits : Text) : Except Fault Float :=
  match Decimal.ofNumeral? digits with
  | none => .error (.malformed (.invalidNumber digits))
  | some d =>
    if d.toFloat.isFinite then .ok d.toFloat else .error (.malformed (.invalidNumber digits))

/-- Whether a character is an ASCII sign: visible, and neither a letter nor a digit. -/
def isSign (c : Char) : Bool := 0x21 ≤ c.toNat && c.toNat ≤ 0x7e && !c.isAlphanum

/-- The token that a character is by itself; `none` for white space. -/
def ofChar (c : Char) : Except Fault (Option Token) :=
  if isBlank c then .ok none
  else match c with
    | '(' => .ok openGroup
    | ')' => .ok closeGroup
    | '+' => .ok (operator .add)
    | '-' => .ok (operator .sub)
    | '*' => .ok (operator .mul)
    | '/' => .ok (operator .div)
    | '^' => .ok (operator .pow)
    | '!' => .ok factorial
    | '√' => .ok (name Func.sqrt.name)
    | c =>
      if isLetter c then .ok (name [c])
      else if isSign c then .error (.unsupported (.character c))
      else .error (.malformed (.unexpectedCharacter c))

/-- The tokens of lexemes; `closed` tells whether an operand has just ended. -/
def ofLexemes (closed : Bool) : List Lexeme → Except Fault (List Token)
  | [] => .ok []
  | .word letters :: rest => do
    let ts ← ofLexemes false rest
    return name (letters.map Char.toLower) :: ts
  | .numeral digits :: rest => do
    let v ← readNumeral digits
    let ts ← ofLexemes true rest
    return number v :: ts
  | .char '-' :: .numeral digits :: rest =>
    if closed then do
      let v ← readNumeral digits
      let ts ← ofLexemes true rest
      return operator .sub :: number v :: ts
    else do
      let v ← readNumeral digits
      let ts ← ofLexemes true rest
      return number (-v) :: ts
  | .char '*' :: .char '*' :: rest => do
    let ts ← ofLexemes false rest
    return operator .pow :: ts
  | .char c :: rest => do
    match ← ofChar c with
    | none => ofLexemes closed rest
    | some t =>
      let ts ← ofLexemes t.closesValue rest
      return t :: ts

/-- The tokens of a text. -/
def read (t : Text) : Except Fault (List Token) := ofLexemes false (Lexeme.split t)

end Token

end SciCalc
