/-
# SciCalc.Proofs.Parentheses -- the parentheses of an entry at every stage

Texts, lexemes, tokens and pieces are compared by the parentheses in them, read
as a walk that goes one group in or one group out (`Paren.depthAfter`).  Cutting
and reading a text changes none of them (`Token.parens_of_read`), and the tokens
of a phrase are balanced (`Phrase.depthAfter_parens`).
-/
import SciCalc.Piece
import SciCalc.Proofs.Grammar
import SciCalc.Proofs.Token.Concatenation

namespace SciCalc

set_option autoImplicit false

/-- A parenthesis. -/
inductive Paren where
  | opens
  | closes
  deriving DecidableEq, Repr

namespace Paren

/-- The number of groups around what follows parentheses, `none` if one of them closes nothing. -/
def depthAfter : Nat → List Paren → Option Nat
  | n, [] => some n
  | n, opens :: rest => depthAfter (n + 1) rest
  | 0, closes :: _ => none
  | n + 1, closes :: rest => depthAfter n rest

@[simp] theorem depthAfter_nil (n : Nat) : depthAfter n [] = some n := by cases n <;> rfl

@[simp] theorem depthAfter_opens (n : Nat) (rest : List Paren) :
    depthAfter n (opens :: rest) = depthAfter (n + 1) rest := by cases n <;> rfl

@[simp] theorem depthAfter_closes_zero (rest : List Paren) :
    depthAfter 0 (closes :: rest) = none := rfl

@[simp] theorem depthAfter_closes_succ (n : Nat) (rest : List Paren) :
    depthAfter (n + 1) (closes :: rest) = depthAfter n rest := rfl

/-- The parenthesis that a character is. -/
def ofChar (c : Char) : Option Paren :=
  if c = '(' then some opens else if c = ')' then some closes else none

/-- The parenthesis that a token is. -/
def ofToken : Token → Option Paren
  | .openGroup => some opens
  | .closeGroup => some closes
  | _ => none

/-- The parenthesis that a lexeme is. -/
def ofLexeme : Lexeme → Option Paren
  | .char c => ofChar c
  | _ => none

/-- The parenthesis that a piece is. -/
def ofPiece : Piece → Option Paren
  | .other c => ofChar c
  | _ => none

theorem eq_of_ofChar_opens {c : Char} (isOpen : ofChar c = some opens) : c = '(' := by
  unfold ofChar at isOpen
  split at isOpen
  · assumption
  · split at isOpen <;> cases isOpen

theorem ofChar_eq_none {c : Char} (noOpen : c ≠ '(') (noClose : c ≠ ')') : ofChar c = none := by
  rw [ofChar, if_neg noOpen, if_neg noClose]

/-- A letter or a part of a numeral is no parenthesis. -/
theorem ofChar_eq_none_of_not_standsAlone {c : Char} (together : Lexeme.standsAlone c = false) :
    ofChar c = none := by
  apply ofChar_eq_none <;> rintro rfl <;> cases together

/-- White space is no parenthesis. -/
theorem ofChar_eq_none_of_isBlank {c : Char} (white : isBlank c = true) : ofChar c = none := by
  apply ofChar_eq_none <;> rintro rfl <;> cases white

theorem ofChar_eq_none_of_isLetter {c : Char} (letter : isLetter c = true) : ofChar c = none := by
  apply ofChar_eq_none <;> rintro rfl <;> cases letter

end Paren

/-! ## Texts and their lexemes -/

/-- The parentheses of a text. -/
def Text.parens (t : Text) : List Paren := t.filterMap Paren.ofChar

@[simp] theorem Text.parens_append (t u : Text) : Text.parens (t ++ u) = t.parens ++ u.parens :=
  List.filterMap_append

namespace Lexeme

/-- The parentheses among lexemes. -/
def parens (ls : List Lexeme) : List Paren := ls.filterMap Paren.ofLexeme

theorem parens_push (c : Char) (ls : List Lexeme) :
    parens (push c ls) = (Paren.ofChar c).toList ++ parens ls := by
  cases alone : standsAlone c with
  | true =>
      rw [push_of_standsAlone alone]
      simp only [parens, List.filterMap_cons, Paren.ofLexeme]
      cases Paren.ofChar c <;> rfl
  | false =>
      rw [Paren.ofChar_eq_none_of_not_standsAlone alone, Option.toList_none, List.nil_append]
      simp only [standsAlone, Bool.and_eq_false_iff, Bool.not_eq_false'] at alone
      unfold push
      split
      · cases ls with
        | nil => rfl
        | cons l ls => cases l <;> rfl
      · rename_i notLetter
        rw [if_pos (alone.resolve_left notLetter)]
        cases ls with
        | nil => rfl
        | cons l ls => cases l <;> rfl

/-- Cutting a text keeps its parentheses. -/
theorem parens_split (t : Text) : parens (split t) = t.parens := by
  induction t with
  | nil => rfl
  | cons c t ih =>
      rw [split_cons, parens_push, ih, Text.parens, Text.parens, List.filterMap_cons]
      cases Paren.ofChar c <;> rfl

end Lexeme

/-! ## Tokens -/

namespace Token

/-- The parentheses among tokens. -/
def parens (ts : List Token) : List Paren := ts.filterMap Paren.ofToken

@[simp] theorem parens_nil : parens [] = [] := rfl

theorem parens_cons (t : Token) (ts : List Token) :
    parens (t :: ts) = (Paren.ofToken t).toList ++ parens ts := by
  rw [parens, List.filterMap_cons]
  cases Paren.ofToken t <;> rfl

@[simp] theorem parens_append (ts us : List Token) : parens (ts ++ us) = parens ts ++ parens us :=
  List.filterMap_append

/-- The token of a character is a parenthesis exactly when the character is. -/
theorem ofToken_of_ofChar {c : Char} {t : Token} (single : ofChar c = .ok (some t)) :
    Paren.ofToken t = Paren.ofChar c := by
  have ofSigns : ∀ p ∈ signs, Paren.ofToken p.2 = Paren.ofChar p.1 := by decide
  rcases ofChar_inv single with sign | ⟨rfl, rfl⟩ | ⟨letter, rfl⟩
  · exact ofSigns _ sign
  · rfl
  · exact (Paren.ofChar_eq_none_of_isLetter letter).symm

/-- Reading lexemes keeps the parentheses. -/
theorem Lexes.parens {closed : Bool} {ls : List Lexeme} {ts : List Token}
    (lexes : Lexes closed ls ts) : Token.parens ts = Lexeme.parens ls := by
  induction lexes with
  | nil closed => rfl
  | word w rest ih => exact ih
  | numeral value rest ih => exact ih
  | signed value rest ih => exact ih
  | power rest ih => exact ih
  | blank white rest ih =>
      rw [Lexeme.parens, List.filterMap_cons, Paren.ofLexeme, Paren.ofChar_eq_none_of_isBlank white]
      exact ih
  | char apart single rest ih =>
      rw [Lexeme.parens, Token.parens, List.filterMap_cons, List.filterMap_cons, Paren.ofLexeme,
        ofToken_of_ofChar single]
      rw [Lexeme.parens, Token.parens] at ih
      rw [ih]

/-- Reading a text keeps its parentheses. -/
theorem parens_of_read {t : Text} {ts : List Token} (done : read t = .ok ts) :
    parens ts = t.parens :=
  (lexes_of_read done).parens.trans (Lexeme.parens_split t)

end Token

namespace Phrase

/-- **The tokens of a phrase are balanced.** -/
theorem depthAfter_parens {c : Category} (d : Phrase c) (n : Nat) (rest : List Paren) :
    Paren.depthAfter n (Token.parens d.tokens ++ rest) = Paren.depthAfter n rest := by
  induction d generalizing n rest with
  | number v => rfl
  | group x ih =>
      simp [tokens, Token.parens_cons, Paren.ofToken, ih]
  | call f x ih =>
      simp [tokens, Token.parens_cons, Paren.ofToken, ih]
  | factorial x ih =>
      simp [tokens, Token.parens_cons, Paren.ofToken, ih]
  | minus x ih => exact ih n rest
  | negate x ih => exact ih n rest
  | binary o x y ihx ihy =>
      simp [tokens, Token.parens_cons, Paren.ofToken, ihx, ihy]
  | ofPrimary x ih | ofSuffixed x ih | ofUnary x ih | ofPower x ih | ofProduct x ih =>
      exact ih n rest

end Phrase

end SciCalc
