/-
# SciCalc.Piece -- the pieces of a raw entry

A raw entry is cut into digits, words, root signs and other characters.  White
space is dropped first and the typographic signs `×`, `÷` and `−` become `*`,
`/` and `-`.  A run of ASCII letters is one word, in lower case; any other
letter, `π` for instance, is a word by itself.

Three words are constants.  A constant is written as the numeral of its value.
-/
import SciCalc.Lexeme
import SciCalc.Text.Blank
import SciCalc.Text.Letter

namespace SciCalc

set_option autoImplicit false

/-- A constant of an expression. -/
inductive Constant where
  | pi
  | euler
  deriving DecidableEq, Repr, Inhabited

namespace Constant

/-- The numeral of a constant: the fewest digits that read back as its double. -/
def numeral : Constant → Text
  | pi => "3.141592653589793"
  | euler => "2.718281828459045"

/-- The constant that a word names. -/
def ofWord? (w : Text) : Option Constant :=
  if w = "pi".toList ∨ w = ['π'] then some pi
  else if w = ['e'] then some euler
  else none

end Constant

/-- A piece of a raw entry. -/
inductive Piece where
  /-- A digit or a point. -/
  | digit (c : Char)
  /-- A run of ASCII letters in lower case, or one other letter. -/
  | word (w : Text)
  /-- Any other character. -/
  | other (c : Char)
  /-- A root sign. -/
  | root
  deriving DecidableEq, Repr

namespace Piece

/-- Whether a piece is a digit or a point. -/
def isDigit : Piece → Bool
  | digit _ => true
  | _ => false

/-- Whether a piece is a word. -/
def isWord : Piece → Bool
  | word _ => true
  | _ => false

/-- Whether a piece names a constant. -/
def isConstant : Piece → Bool
  | word w => (Constant.ofWord? w).isSome
  | _ => false

/-- An opening parenthesis. -/
def opening : Piece := other '('

/-- A closing parenthesis. -/
def closing : Piece := other ')'

/-- The name of the square root. -/
def sqrt : Piece := word "sqrt"

/-- The character that stands for a typographic sign. -/
def plainSign (c : Char) : Char :=
  if c = '×' then '*' else if c = '÷' then '/' else if c = '−' then '-' else c

/-- The piece that a character is by itself. -/
def ofChar (c : Char) : Piece :=
  if c = '√' then root else if isLetter c then word [c] else other c

/-- The pieces of a lexeme. -/
def ofLexeme : Lexeme → List Piece
  | .word letters => [word (letters.map Char.toLower)]
  | .numeral digits => digits.map digit
  | .char c => [ofChar c]

/-- The pieces of a raw entry. -/
def cut (t : Text) : List Piece :=
  (Lexeme.split (t.withoutBlanks.map plainSign)).flatMap ofLexeme

/-- The written form of a piece. -/
def text : Piece → Text
  | digit c => [c]
  | word w =>
    match Constant.ofWord? w with
    | some k => k.numeral
    | none => w
  | other c => [c]
  | root => "sqrt"

@[simp] theorem cut_nil : cut [] = [] := rfl

end Piece

end SciCalc
