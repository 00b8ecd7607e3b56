/-
# SciCalc.Entry -- editing an entry with keys

An entry is a text.  `Entry.press` inserts the text of a key, `Entry.delete`
takes the last symbol away: the name of a function with its parenthesis, `pi`
and `**` go as a whole, anything else goes one character at a time.  White space
at the end is never a symbol.
-/
import SciCalc.Keypad
import SciCalc.Text.Blank

namespace SciCalc

set_option autoImplicit false

namespace Entry

/-- Whether a character can end an operand, as far as spacing goes. -/
def endsOperand (c : Char) : Bool := c.isDigit || c.isAlpha || c == ')' || c == '!'

/-- Whether a space goes before a text that begins an operand. -/
def needsSpace (entry : Text) : Bool :=
  match entry.reverse.dropWhile isBlank with
  | [] => false
  | c :: _ => endsOperand c && !(entry.getLast?.any isBlank)

/-- Inserts a text at the end of an entry. -/
def insert (style : Key.Style) (t entry : Text) : Text :=
  match style with
  | .bare => entry ++ t
  | .attached => entry.trimEnd ++ t
  | .spaced =>
    let kept := entry.trimEnd
    (if kept.isEmpty then [] else kept ++ [' ']) ++ t ++ [' ']
  | .leading => (if needsSpace entry then entry ++ [' '] else entry) ++ t

/-- Inserts the text of a key. -/
def press (k : Key) (entry : Text) : Text := insert k.style k.text entry

/-- The texts that are deleted as a whole, longer ones before those they end with. -/
def symbols : List Text :=
  ["asin(", "acos(", "atan(", "floor(", "round(", "sqrt(", "ceil(", "sin(", "cos(", "tan(",
    "log(", "exp(", "abs(", "ln(", "pi", "**"]

/-- The number of characters of the last symbol of an entry. -/
def lastSymbolLength (entry : Text) : Nat :=
  match symbols.find? fun s => entry.endsWith s with
  | some s => s.length
  | none => 1

/-- Takes the last symbol away. -/
def delete (entry : Text) : Text :=
  let kept := entry.trimEnd
  (kept.dropEnd (lastSymbolLength kept)).trimEnd

theorem press_ne_nil (k : Key) (entry : Text) : press k entry ≠ [] := by
  have h := k.text_ne_nil
  unfold press insert
  cases k.style <;> simp [h]

end Entry

end SciCalc
