/-
# SciCalc.Proofs.Piece.Writing -- what cutting gives and writing keeps

A text is cut at every visible character that is a lexeme by itself
(`Piece.cut_append_cons`), and pieces can be written apart at every piece that
is such a character, but for an opening parenthesis (`Piece.write_append_other`,
`Piece.write_other_cons`).

The pieces of a text are `Piece.Legible`: something visible is written for each,
with no parentheses but its own.  Whatever legible pieces are written has the
parentheses of the pieces (`Piece.parens_write`).
-/
import SciCalc.Piece.Product
import SciCalc.Proofs.Parentheses

namespace SciCalc

set_option autoImplicit false

/-! ## The lexemes of a text -/

namespace Lexeme

/-- A run of characters of one kind, all of them of a class. -/
def Run (class' : Char → Prop) (kind : Char → Bool) (t : Text) : Prop :=
  t ≠ [] ∧ ∀ c ∈ t, class' c ∧ kind c = true

/-- The lexemes that a text of a class of characters can be cut into. -/
def Drawn (class' : Char → Prop) : Lexeme → Prop
  | word w => Run class' Char.isAlpha w
  | numeral d => Run class' Decimal.isNumeral d
  | char c => class' c

section Drawn

variable {class' : Char → Prop} {kind : Char → Bool} {c : Char} {t : Text} {ls : List Lexeme}

theorem run_cons (member : class' c) (ofKind : kind c = true)
    (others : ∀ x ∈ t, class' x ∧ kind x = true) : Run class' kind (c :: t) :=
  ⟨List.cons_ne_nil c t, List.forall_mem_cons.2 ⟨⟨member, ofKind⟩, others⟩⟩

theorem drawn_push (member : class' c) (drawn : ∀ l ∈ ls, l.Drawn class') :
    ∀ l ∈ push c ls, l.Drawn class' := by
  unfold push
  split
  · rename_i letter
    split
    · obtain ⟨first, others⟩ := List.forall_mem_cons.1 drawn
      exact List.forall_mem_cons.2 ⟨run_cons member letter first.2, others⟩
    · exact List.forall_mem_cons.2 ⟨run_cons member letter nofun, drawn⟩
  · split
    · rename_i digit
      split
      · obtain ⟨first, others⟩ := List.forall_mem_cons.1 drawn
        exact List.forall_mem_cons.2 ⟨run_cons member digit first.2, others⟩
      · exact List.forall_mem_cons.2 ⟨run_cons member digit nofun, drawn⟩
    · exact List.forall_mem_cons.2 ⟨member, drawn⟩

/-- A text of a class of characters is cut into lexemes of that class. -/
theorem drawn_split (members : ∀ c ∈ t, class' c) : ∀ l ∈ split t, l.Drawn class' := by
  induction t with
  | nil => simp
  | cons c t ih =>
      obtain ⟨first, others⟩ := List.forall_mem_cons.1 members
      rw [split_cons]
      exact drawn_push first (ih others)

end Drawn

end Lexeme

namespace Piece

open Lexeme

/-! ## Cutting -/

/-- The sign that is meant can be seen if the one that is written can. -/
theorem isBlank_plainSign {c : Char} (visible : isBlank c = false) :
    isBlank (plainSign c) = false := by
  unfold plainSign
  split
  · rfl
  · split
    · rfl
    · split
      · rfl
      · exact visible

/-- White space is nothing to the pieces. -/
theorem cut_congr {t u : Text} (same : t.withoutBlanks = u.withoutBlanks) : cut t = cut u := by
  rw [cut, cut, same]

/-- **A text is cut at a visible character that stands alone.** -/
theorem cut_append_cons {c : Char} (visible : isBlank c = false)
    (alone : standsAlone (plainSign c) = true) (t u : Text) :
    cut (t ++ c :: u) = cut t ++ ofChar (plainSign c) :: cut u := by
  have plain : (t ++ c :: u).withoutBlanks.map plainSign =
      t.withoutBlanks.map plainSign ++ plainSign c :: u.withoutBlanks.map plainSign := by
    simp [Text.withoutBlanks, visible]
  rw [cut, plain, split_append_cons alone]
  simp [cut, ofLexeme]

theorem cut_cons {c : Char} (visible : isBlank c = false)
    (alone : standsAlone (plainSign c) = true) (u : Text) :
    cut (c :: u) = ofChar (plainSign c) :: cut u :=
  cut_append_cons visible alone [] u

/-! ## Writing -/

theorem write_cons (p : Piece) (q : Piece) (rest : List Piece) :
    write (p :: q :: rest) = p.text ++ between p q ++ write (q :: rest) := rfl

/-- Between any piece and a character there is nothing, but for an opening parenthesis. -/
theorem between_other {c : Char} (noOpen : c ≠ '(') (p : Piece) : between p (other c) = [] := by
  cases p <;> simp [between, multiplies, noOpen]

/-- Between a character that ends no operand and any piece there is nothing. -/
theorem other_between {c : Char} (noClose : c ≠ ')') (noFactorial : c ≠ '!') (q : Piece) :
    between (other c) q = [] := by
  cases q <;> simp [between, multiplies, noClose, noFactorial]

theorem write_append_cons (ps : List Piece) (p q : Piece) (rest : List Piece) :
    write (ps ++ p :: q :: rest) = write (ps ++ [p]) ++ between p q ++ write (q :: rest) := by
  induction ps with
  | nil => rfl
  | cons a ps ih =>
      cases ps with
      | nil => simp [write]
      | cons b ps =>
          simp only [List.cons_append] at ih ⊢
          rw [write_cons, write_cons, ih]
          simp

/-- What is written of a piece and the ones after it ends the whole. -/
theorem exists_write_append (ps : List Piece) (q : Piece) (rest : List Piece) :
    ∃ u, write (ps ++ q :: rest) = u ++ write (q :: rest) := by
  rcases List.eq_nil_or_concat ps with rfl | ⟨ps, p, rfl⟩
  · exact ⟨[], rfl⟩
  · refine ⟨write (ps ++ [p]) ++ between p q, ?_⟩
    rw [List.concat_eq_append, List.append_assoc, List.singleton_append, write_append_cons]

/-- **Pieces are written apart before a character** that is no opening parenthesis. -/
theorem write_append_other {c : Char} (noOpen : c ≠ '(') (ps rest : List Piece) :
    write (ps ++ other c :: rest) = write ps ++ write (other c :: rest) := by
  rcases List.eq_nil_or_concat ps with rfl | ⟨ps, p, rfl⟩
  · rfl
  · rw [List.concat_eq_append, List.append_assoc, List.singleton_append, write_append_cons,
      between_other noOpen, List.append_nil]

/-- **Pieces are written apart after a character** that ends no operand. -/
theorem write_other_cons {c : Char} (noClose : c ≠ ')') (noFactorial : c ≠ '!')
    (rest : List Piece) : write (other c :: rest) = c :: write rest := by
  cases rest with
  | nil => rfl
  | cons q rest =>
      rw [write_cons, other_between noClose noFactorial]
      rfl

/-- **Between factors a star is written.** -/
theorem write_append_of_multiplies {ps qs : List Piece} {p q : Piece} (last : p ∈ ps.getLast?)
    (first : q ∈ qs.head?) (factors : p.multiplies q = true) :
    write (ps ++ qs) = write ps ++ '*' :: write qs := by
  obtain ⟨before, rfl⟩ := List.getLast?_eq_some_iff.1 last
  obtain ⟨after, rfl⟩ := List.head?_eq_some_iff.1 first
  rw [List.append_assoc, List.singleton_append, write_append_cons, between, if_pos factors,
    List.append_assoc, List.singleton_append]

/-! ## Legible pieces -/

/-- The parentheses among pieces. -/
def parens (ps : List Piece) : List Paren := ps.filterMap Paren.ofPiece

@[simp] theorem parens_nil : parens [] = [] := rfl

theorem parens_cons (p : Piece) (ps : List Piece) :
    parens (p :: ps) = (Paren.ofPiece p).toList ++ parens ps := by
  rw [parens, List.filterMap_cons]
  cases Paren.ofPiece p <;> rfl

@[simp] theorem parens_append (ps qs : List Piece) : parens (ps ++ qs) = parens ps ++ parens qs :=
  List.filterMap_append

/-- Something visible is written for the piece, with no parenthesis but the piece itself. -/
structure Legible (p : Piece) : Prop where
  written : p.text ≠ []
  visible : ∀ c ∈ p.text, isBlank c = false
  parens : p.text.parens = (Paren.ofPiece p).toList

theorem parens_between (p q : Piece) : (between p q).parens = [] := by
  unfold between
  split <;> rfl

/-- **What is written has the parentheses of the pieces.** -/
theorem parens_write {ps : List Piece} (legible : ∀ p ∈ ps, p.Legible) :
    (write ps).parens = parens ps := by
  induction ps with
  | nil => rfl
  | cons p ps ih =>
      have first := legible p (List.mem_cons_self ..)
      have others := ih fun q member => legible q (List.mem_cons_of_mem p member)
      cases ps with
      | nil => rw [write_singleton, first.parens, parens_cons, parens_nil, List.append_nil]
      | cons q ps =>
          rw [write_cons, Text.parens_append, Text.parens_append, parens_between, others,
            first.parens, List.append_nil, ← parens_cons]

theorem head_write {p : Piece} (written : p.text ≠ []) (rest : List Piece) :
    (write (p :: rest)).head? = p.text.head? := by
  obtain ⟨c, text, shape⟩ := List.exists_cons_of_ne_nil written
  cases rest with
  | nil => rfl
  | cons q rest =>
      rw [write_cons, shape]
      rfl

/-- Only an opening parenthesis is written as what begins with one. -/
theorem Legible.eq_opening {p : Piece} (legible : p.Legible) (first : p.text.head? = some '(') :
    p = opening := by
  have parens := legible.parens
  cases shape : p.text with
  | nil => exact absurd shape legible.written
  | cons c text =>
      rw [shape] at first parens
      obtain rfl := Option.some.inj first
      cases p with
      | other d =>
          rw [Piece.text, List.cons.injEq] at shape
          rw [shape.1]
          rfl
      | _ => cases parens

theorem visible_of_all {t : Text} (visible : t.all (fun c => !isBlank c) = true) :
    ∀ c ∈ t, isBlank c = false := by
  simpa using visible

theorem legible_opening : opening.Legible := ⟨by decide, visible_of_all rfl, rfl⟩

theorem legible_closing : closing.Legible := ⟨by decide, visible_of_all rfl, rfl⟩

theorem legible_sqrt : sqrt.Legible := ⟨by decide, visible_of_all rfl, rfl⟩

theorem legible_constant {w : Text} {k : Constant} (named : Constant.ofWord? w = some k) :
    (word w).Legible := by
  have numeral : (word w).text = k.numeral := by simp [text, named]
  refine ⟨?_, ?_, ?_⟩
  · rw [numeral]
    cases k <;> decide
  · rw [numeral]
    exact visible_of_all (by cases k <;> rfl)
  · rw [numeral]
    cases k <;> rfl

theorem text_word_of_none {w : Text} (noConstant : Constant.ofWord? w = none) :
    (word w).text = w := by
  simp [text, noConstant]

/-- A word is legible if it is made of visible characters and has no parentheses. -/
theorem legible_word {w : Text} (some : w ≠ []) (visible : ∀ c ∈ w, isBlank c = false)
    (none : ∀ c ∈ w, Paren.ofChar c = none) : (word w).Legible := by
  cases named : Constant.ofWord? w with
  | some k => exact legible_constant named
  | none =>
      have same := text_word_of_none named
      refine ⟨by rwa [same], by rwa [same], ?_⟩
      rw [same]
      exact List.filterMap_eq_nil_iff.2 none

theorem legible_digit {c : Char} (digit : Decimal.isNumeral c = true) :
    (Piece.digit c).Legible := by
  refine ⟨by simp [text], ?_, ?_⟩
  · simpa [text] using isBlank_eq_false_of_isNumeral digit
  · have none : Paren.ofChar c = none := by
      apply Paren.ofChar_eq_none_of_not_standsAlone
      simp [standsAlone, digit]
    simp [text, Text.parens, none, Paren.ofPiece]

theorem legible_ofChar {c : Char} (visible : isBlank c = false) : (ofChar c).Legible := by
  unfold ofChar
  split
  · exact ⟨by decide, visible_of_all rfl, rfl⟩
  · split
    · rename_i letter
      exact legible_word (by simp) (by simpa using visible)
        (by simpa using Paren.ofChar_eq_none_of_isLetter letter)
    · refine ⟨by simp [text], by simpa [text] using visible, ?_⟩
      simp only [text, Text.parens, List.filterMap_cons, List.filterMap_nil, Paren.ofPiece]
      cases Paren.ofChar c <;> rfl

theorem legible_ofLexeme {l : Lexeme} (drawn : l.Drawn fun c => isBlank c = false) :
    ∀ p ∈ ofLexeme l, p.Legible := by
  cases l with
  | word w =>
      obtain ⟨some, letters⟩ := drawn
      have lowered := isAlpha_of_mem_map_toLower fun c member => (letters c member).2
      simp only [ofLexeme, List.mem_singleton, forall_eq]
      refine legible_word (by simpa using some) ?_ ?_
      · exact fun c member => isBlank_eq_false_of_isAlpha (lowered c member)
      · intro c member
        apply Paren.ofChar_eq_none_of_not_standsAlone
        simp [standsAlone, lowered c member]
  | numeral d =>
      intro p member
      obtain ⟨c, among, rfl⟩ := List.mem_map.1 member
      exact legible_digit (drawn.2 c among).2
  | char c =>
      simp only [ofLexeme, List.mem_singleton, forall_eq]
      exact legible_ofChar drawn

/-- **The pieces of a text are legible.** -/
theorem legible_cut (t : Text) : ∀ p ∈ cut t, p.Legible := by
  have visible : ∀ c ∈ t.withoutBlanks.map plainSign, isBlank c = false := by
    intro c member
    obtain ⟨d, among, rfl⟩ := List.mem_map.1 member
    have shown := (List.mem_filter.1 among).2
    exact isBlank_plainSign (by simpa using shown)
  intro p member
  obtain ⟨l, among, inside⟩ := List.mem_flatMap.1 member
  exact legible_ofLexeme (drawn_split visible l among) p inside

end Piece

end SciCalc
