/-
# SciCalc.Proofs.Token.Sides -- where operands end and begin

What a lexeme is to its neighbours (`Lexeme.side`) is what each of its characters
is to theirs.  An operand ends on some sides and begins on others, and a token
ends or begins one as the lexeme it was read from does (`Token.ofChar_spec`).

So the last lexeme of a text tells whether an operand has just ended after its
tokens (`Token.Lexes.closedAfter_eq`), and a piece that ends one is a factor
before any word or parenthesis (`Piece.multiplies_of_ends`).  Where no characters
side by side are factors no lexeme that begins an operand follows one that ends an
operand (`Lexeme.isChain_detached`).
-/
import SciCalc.Proofs.Piece.Neighbours

namespace SciCalc

set_option autoImplicit false

/-! ## Lexemes -/

namespace Side

/-- Whether an operand can end on the side. -/
def ends : Side → Bool
  | digit => true
  | closes => true
  | _ => false

/-- Whether an operand can begin on the side. -/
def begins : Side → Bool
  | digit => true
  | letter => true
  | opens => true
  | _ => false

/-- What begins an operand multiplies what ends one, but for digits, which are one numeral. -/
theorem joins_of_ends {a b : Side} (ends : a.ends = true) (begins : b.begins = true) :
    a.joins b = true ∨ a = digit ∧ b = digit := by
  revert ends begins
  cases a <;> cases b <;> decide

end Side

namespace Lexeme

/-- What a lexeme is to its neighbours. -/
def side : Lexeme → Side
  | word _ => .letter
  | numeral _ => .digit
  | char c => Side.ofChar c

/-- Of two lexemes side by side not both the first ends an operand and the second begins one. -/
def Detached (a b : Lexeme) : Prop := a.side.ends = true → b.side.begins = false

/-- Every character of a lexeme shows the side of the lexeme. -/
theorem side_of_mem {l : Lexeme} {t : Text} (member : l ∈ split t) :
    ∀ c ∈ l.text, Side.ofChar c = l.side := by
  have drawn := drawn_of_mem_split member
  intro c among
  cases l with
  | word w => exact Side.ofChar_of_isLetter (isLetter_of_isAlpha (drawn.2 c among).2)
  | numeral d => exact Side.ofChar_of_isNumeral (drawn.2 c among).2
  | char d => rw [List.mem_singleton.1 among, side]

/-- What lexemes spell ends with a character of the last one. -/
theorem exists_last_of_spell {ls : List Lexeme} (some : ∀ l ∈ ls, l.text ≠ []) {c : Char}
    (last : (spell ls).getLast? = .some c) : ∃ l, ls.getLast? = .some l ∧ c ∈ l.text := by
  rcases List.eq_nil_or_concat ls with rfl | ⟨others, l, rfl⟩
  · cases last
  · rw [List.concat_eq_append] at last some ⊢
    refine ⟨l, by simp, List.mem_of_getLast? ?_⟩
    rw [← last, spell, List.flatMap_append, List.flatMap_singleton,
      List.getLast?_append_of_ne_nil _ (some l (by simp))]

/-- The last character of a text shows the side of the last lexeme. -/
theorem exists_last {t : Text} {c : Char} (last : t.getLast? = some c) :
    ∃ l, (split t).getLast? = some l ∧ Side.ofChar c = l.side := by
  rw [← spell_split t] at last
  obtain ⟨l, whole, among⟩ := exists_last_of_spell (fun l => text_ne_nil) last
  exact ⟨l, whole, side_of_mem (List.mem_of_getLast? whole) c among⟩

/-- Only numerals show digits. -/
theorem exists_numeral {l : Lexeme} {t : Text} (member : l ∈ split t)
    (digit : l.side = .digit) : ∃ d, l = numeral d := by
  cases l with
  | word w => cases digit
  | numeral d => exact ⟨d, rfl⟩
  | char c =>
      obtain ⟨-, noNumeral⟩ := standsAlone_iff.1 (standsAlone_of_mem_split member)
      simp only [side, Side.ofChar, noNumeral, Bool.false_eq_true, if_false] at digit
      repeat' split at digit
      all_goals cases digit

/-- Characters side by side are no factors where no lexemes side by side are. -/
theorem isChain_unjoined {t : Text}
    (seams : (split t).IsChain fun a b => a.side.joins b.side = false) :
    t.IsChain Text.Unjoined := by
  rw [← spell_split t, spell, isChain_flatMap fun l member => text_ne_nil member]
  refine ⟨fun l member => ?_, ?_⟩
  · refine (List.pairwise_of_forall_mem_list fun a first b second => ?_).isChain
    rw [Text.Unjoined, side_of_mem member a first, side_of_mem member b second]
    exact Side.joins_self _
  · refine seams.imp_of_mem_imp fun a b first second joins c last e head => ?_
    rw [Text.Unjoined, side_of_mem first c (List.mem_of_mem_getLast? last),
      side_of_mem second e (List.mem_of_mem_head? head)]
    exact joins

/-- **The lexemes of a text in which no characters side by side are factors.** -/
theorem isChain_detached {t : Text} (apart : t.IsChain Text.Unjoined) :
    (split t).IsChain Detached := by
  have seams := apart
  rw [← spell_split t, spell, isChain_flatMap fun l member => text_ne_nil member] at seams
  have both : (split t).IsChain fun a b =>
      (∀ c ∈ a.text.getLast?, ∀ d ∈ b.text.head?, Text.Unjoined c d) ∧ alike a b = false :=
    List.isChain_iff_getElem.2 fun i inside =>
      ⟨List.isChain_iff_getElem.1 seams.2 i inside,
        List.isChain_iff_getElem.1 (isChain_split t) i inside⟩
  refine both.imp_of_mem_imp fun a b first second seam ends => ?_
  obtain ⟨unjoined, unlike⟩ := seam
  have someA := text_ne_nil first
  have someB := text_ne_nil second
  have factors := unjoined _ (List.getLast?_eq_getLast_of_ne_nil someA) _
    (List.head?_eq_some_head someB)
  rw [Text.Unjoined, side_of_mem first _ (List.getLast_mem someA),
    side_of_mem second _ (List.head_mem someB)] at factors
  by_contra begins
  rcases Side.joins_of_ends ends (by simpa using begins) with joins | ⟨digitA, digitB⟩
  · rw [joins] at factors
    cases factors
  · obtain ⟨d, rfl⟩ := exists_numeral first digitA
    obtain ⟨e, rfl⟩ := exists_numeral second digitB
    cases unlike

end Lexeme

/-! ## Pieces -/

namespace Piece

/-- What is written for pieces ends with what is written for the last one. -/
theorem getLast?_write {p : Piece} {ps : List Piece} (last : p ∈ ps.getLast?)
    (written : p.text ≠ []) : (write ps).getLast? = p.text.getLast? := by
  obtain ⟨others, rfl⟩ := List.getLast?_eq_some_iff.1 last
  obtain ⟨u, whole⟩ := exists_write_append others p []
  rw [whole, write_singleton, List.getLast?_append_of_ne_nil _ written]

/-- **A word or a parenthesis multiplies what ends an operand.** -/
theorem multiplies_of_ends {p q : Piece} (wellFormed : p.WellFormed) (ends : p.face.ends = true)
    (leads : q = opening ∨ q.isWord = true) : p.multiplies q = true := by
  have constant {w : Text} (ends : (word w).face.ends = true) :
      (word w).isConstant = true := by
    by_contra other
    rw [face_word_of_none (by simpa using other)] at ends
    cases ends
  have closes {c : Char} (wellFormed : (other c).WellFormed) (ends : (other c).face.ends = true) :
      c = ')' ∨ c = '!' := by
    rw [face_other_of_wellFormed wellFormed] at ends
    by_contra other
    rw [if_neg other] at ends
    split at ends <;> cases ends
  rcases leads with rfl | isWord
  · cases p with
    | digit c => rfl
    | word w => simpa [multiplies, opening] using constant ends
    | other c => simpa [multiplies, opening] using closes wellFormed ends
    | root => cases wellFormed
  · cases q with
    | word v =>
        cases p with
        | digit c => rfl
        | word w => simp [multiplies, constant ends]
        | other c => simpa [multiplies] using closes wellFormed ends
        | root => cases wellFormed
    | _ => cases isWord

end Piece

/-! ## Tokens -/

namespace Token

open Lexeme

/-- A character that is a token ends and begins operands as its side does. -/
theorem ofChar_spec {c : Char} {t : Token} (single : ofChar c = .ok (some t)) (noRoot : c ≠ '√') :
    t.closesValue = (Side.ofChar c).ends ∧ t.opensValue = (Side.ofChar c).begins ∧ t ≠ negate := by
  have ofSigns : ∀ p ∈ signs, p.2.closesValue = (Side.ofChar p.1).ends ∧
      p.2.opensValue = (Side.ofChar p.1).begins ∧ p.2 ≠ negate := by decide
  rcases ofChar_inv single with sign | ⟨isRoot, -⟩ | ⟨letter, rfl⟩
  · exact ofSigns _ sign
  · exact absurd isRoot noRoot
  · rw [Side.ofChar_of_isLetter letter]
    exact ⟨rfl, rfl, nofun⟩

/-- After the tokens of lexemes an operand has ended as the last lexeme says, if it does so after
the first token and after the others. -/
theorem Lexes.closedAfter_cons {closed : Bool} {l m : Lexeme} {ls : List Lexeme} {ts : List Token}
    (rest : Lexes closed ls ts) (last : (m :: ls).getLast? = some l)
    (first : m = l → closed = l.side.ends)
    (others : ls.getLast? = some l → closedAfter closed ts = l.side.ends) :
    closedAfter closed ts = l.side.ends := by
  cases ls with
  | nil =>
      cases rest
      exact first (Option.some.inj last)
  | cons n ls => exact others last

/-- **Whether an operand has just ended** after the tokens of lexemes is seen on the last one. -/
theorem Lexes.closedAfter_eq {closed : Bool} {ls : List Lexeme} {ts : List Token}
    (lexes : Lexes closed ls ts) {l : Lexeme} (last : ls.getLast? = some l)
    (shown : ∀ c, l = .char c → isBlank c = false ∧ c ≠ '√') :
    closedAfter closed ts = l.side.ends := by
  induction lexes with
  | nil closed => cases last
  | word w rest ih => exact rest.closedAfter_cons last (fun same => same ▸ rfl) ih
  | numeral value rest ih => exact rest.closedAfter_cons last (fun same => same ▸ rfl) ih
  | signed value rest ih => exact rest.closedAfter_cons last (fun same => same ▸ rfl) ih
  | power rest ih => exact rest.closedAfter_cons last (fun same => same ▸ rfl) ih
  | @blank closed c ls ts white rest ih =>
      cases ls with
      | nil =>
          obtain rfl := Option.some.inj last
          rw [(shown c rfl).1] at white
          cases white
      | cons m ls => exact ih last
  | @char closed c t ls ts apart single rest ih =>
      refine rest.closedAfter_cons last ?_ ih
      rintro rfl
      exact (ofChar_spec single (shown c rfl).2).1

end Token

end SciCalc
