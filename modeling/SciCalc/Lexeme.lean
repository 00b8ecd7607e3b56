/-
# SciCalc.Lexeme -- an entry cut into words, numerals and single characters

`Lexeme.split` cuts a text into maximal runs of ASCII letters, maximal runs of
digits and points, and single characters.  Nothing is lost
(`Lexeme.spell_split`): the lexemes written one after another are the text.
-/
import SciCalc.Decimal

namespace SciCalc

set_option autoImplicit false

/-- A piece of text that is read as a whole. -/
inductive Lexeme where
  /-- ASCII letters. -/
  | word (letters : Text)
  /-- Digits and points. -/
  | numeral (digits : Text)
  /-- Any other character. -/
  | char (c : Char)
  deriving DecidableEq, Repr

namespace Lexeme

/-- The text of a lexeme. -/
def text : Lexeme → Text
  | word t => t
  | numeral t => t
  | char c => [c]

/-- Puts a character before lexemes; a letter joins a word, a digit or a point a numeral. -/
def push (c : Char) (rest : List Lexeme) : List Lexeme :=
  if c.isAlpha then
    match rest with
    | word t :: more => word (c :: t) :: more
    | _ => word [c] :: rest
  else if Decimal.isNumeral c then
    match rest with
    | numeral t :: more => numeral (c :: t) :: more
    | _ => numeral [c] :: rest
  else char c :: rest

/-- The lexemes of a text. -/
def split (t : Text) : List Lexeme := t.foldr push []

/-- The text that lexemes spell. -/
def spell (ls : List Lexeme) : Text := ls.flatMap text

@[simp] theorem split_nil : split [] = [] := rfl

theorem split_cons (c : Char) (t : Text) : split (c :: t) = push c (split t) := rfl

theorem spell_push (c : Char) (ls : List Lexeme) : spell (push c ls) = c :: spell ls := by
  unfold push
  split
  · split <;> simp [spell, text]
  · split
    · split <;> simp [spell, text]
    · simp [spell, text]

/-- **Nothing is lost**: the lexemes of a text spell it. -/
theorem spell_split (t : Text) : spell (split t) = t := by
  induction t with
  | nil => rfl
  | cons c t ih => rw [split_cons, spell_push, ih]

end Lexeme

end SciCalc
