/-
# SciCalc.Proofs.Balance -- only balanced entries are read

The pass that writes root signs as calls puts parentheses in, some of them at the
close of a group of the entry.  It repairs nothing: an entry that is read has
balanced parentheses of its own (`Settings.balanced_of_read`).

What is read is the tokens of a phrase, so what the pass has written is balanced
and applies every square root to a group.  The pass then has met the pieces in
good order (`Piece.inOrder_of_wrapRoots`), and in such pieces the groups that it
counts open and close (`Piece.InOrder.depthAfter_parens`), whatever it owed for
them.
-/
import SciCalc.Proofs.Piece.Calls
import SciCalc.Proofs.Working

namespace SciCalc

set_option autoImplicit false

/-! ## Balanced texts -/

namespace Text

/-- No beginning of the text closes more groups than it opens, and the whole closes as many as it
opens. -/
structure Balanced (t : Text) : Prop where
  beginnings : ∀ u, u <+: t → u.count ')' ≤ u.count '('
  whole : t.count ')' = t.count '('

theorem parens_cons (c : Char) (t : Text) :
    parens (c :: t) = (Paren.ofChar c).toList ++ parens t := by
  rw [parens, List.filterMap_cons]
  cases Paren.ofChar c <;> rfl

/-- A walk through the parentheses of a text goes as far as they are counted. -/
theorem count_of_depthAfter {n k : Nat} {t : Text}
    (walked : Paren.depthAfter n (parens t) = some k) :
    (∀ u, u <+: t → u.count ')' ≤ n + u.count '(') ∧ k + t.count ')' = n + t.count '(' := by
  induction t generalizing n with
  | nil =>
      obtain rfl := Option.some.inj ((Paren.depthAfter_nil n).symm.trans walked)
      simp
  | cons c t ih =>
      -- the first character is counted in every beginning but the empty one
      have cons (m : Nat)
          (rest : (∀ u, u <+: t → u.count ')' ≤ m + u.count '(') ∧
            k + t.count ')' = m + t.count '(')
          (step : m + [c].count ')' = n + [c].count '(') :
          (∀ u, u <+: c :: t → u.count ')' ≤ n + u.count '(') ∧
            k + (c :: t).count ')' = n + (c :: t).count '(' := by
        rw [← List.singleton_append, List.count_append, List.count_append]
        refine ⟨fun u begins => ?_, by omega⟩
        rcases List.prefix_cons_iff.1 begins with rfl | ⟨v, rfl, within⟩
        · simp
        · have counted := rest.1 v within
          rw [← List.singleton_append, List.count_append, List.count_append]
          omega
      rw [parens_cons] at walked
      by_cases isOpen : c = '('
      · subst isOpen
        exact cons (n + 1) (ih ((Paren.depthAfter_opens n _).symm.trans walked)) (by simp)
      by_cases isClose : c = ')'
      · subst isClose
        cases n with
        | zero => cases walked
        | succ n => exact cons n (ih walked) (by simp)
      · rw [Paren.ofChar, if_neg isOpen, if_neg isClose] at walked
        exact cons n (ih walked) (by simp [isOpen, isClose])

theorem balanced_of_depthAfter {t : Text} (walked : Paren.depthAfter 0 (parens t) = some 0) :
    t.Balanced := by
  obtain ⟨beginnings, whole⟩ := count_of_depthAfter walked
  exact ⟨fun u begins => by simpa using beginnings u begins, by simpa using whole⟩

end Text

namespace Piece

open Lexeme Paren

/-! ## The parentheses of pieces -/

/-- The piece that a character is by itself is the same parenthesis. -/
theorem ofPiece_ofChar (c : Char) : Paren.ofPiece (ofChar c) = Paren.ofChar c := by
  unfold ofChar
  split
  · rename_i isRoot
    rw [isRoot]
    rfl
  · split
    · rename_i letter
      exact (Paren.ofChar_eq_none_of_isLetter letter).symm
    · rfl

theorem parens_ofLexeme (l : Lexeme) : parens (ofLexeme l) = (Paren.ofLexeme l).toList := by
  cases l with
  | word w => rfl
  | numeral d =>
      refine parens_eq_nil fun p member => ?_
      obtain ⟨c, -, rfl⟩ := List.mem_map.1 member
      rfl
  | char c =>
      rw [ofLexeme, parens_cons, ofPiece_ofChar, parens_nil, List.append_nil, Paren.ofLexeme]

/-- The sign that is meant is the same parenthesis as the one that is written. -/
theorem ofChar_plainSign (c : Char) : Paren.ofChar (plainSign c) = Paren.ofChar c := by
  unfold plainSign
  split
  · rename_i times
    rw [times]
    rfl
  split
  · rename_i divided
    rw [divided]
    rfl
  split
  · rename_i minus
    rw [minus]
    rfl
  · rfl

/-- **Cutting an entry keeps its parentheses.** -/
theorem parens_cut (t : Text) : parens (cut t) = t.parens := by
  have pieces (ls : List Lexeme) : parens (ls.flatMap ofLexeme) = Lexeme.parens ls := by
    induction ls with
    | nil => rfl
    | cons l ls ih =>
        rw [List.flatMap_cons, parens_append, parens_ofLexeme, ih, Lexeme.parens, Lexeme.parens,
          List.filterMap_cons]
        cases Paren.ofLexeme l <;> rfl
  have shown : Text.parens (t.withoutBlanks.map plainSign) = t.parens := by
    simp only [Text.parens, Text.withoutBlanks, List.filterMap_map, List.filterMap_filter]
    refine List.filterMap_congr fun c _ => ?_
    cases white : isBlank c with
    | true => simp [Paren.ofChar_eq_none_of_isBlank white]
    | false => simp [ofChar_plainSign]
  rw [cut, pieces, parens_split, shown]

/-- **Pieces in good order close the groups that they open**, and those around them. -/
theorem InOrder.depthAfter_parens {phase : Phase} {n : Nesting} {ps : List Piece}
    (inOrder : InOrder phase n ps) : depthAfter n.depth (parens ps) = some 0 := by
  have opened (k : Nat) (ps : List Piece) :
      depthAfter k (parens (opening :: ps)) = depthAfter (k + 1) (parens ps) :=
    depthAfter_opens k (parens ps)
  induction inOrder with
  | nil => rfl
  | sign _ ih => exact ih
  | @piece n p ps noRoot inside _ ih =>
      by_cases isOpen : p = opening
      · subst isOpen
        rw [opened]
        exact ih
      by_cases isClose : p = closing
      · subst isClose
        obtain ⟨k, depth⟩ := Nat.exists_eq_add_of_lt (inside rfl)
        rw [after_closing, Nesting.depth_leave, depth] at ih
        rw [depth]
        exact ih
      · rw [parens_cons, ofPiece_of_ne isOpen isClose]
        rw [after_of_ne isOpen isClose] at ih
        exact ih
  | another _ ih => exact ih
  | digits digit _ ih =>
      rw [parens_cons, ofPiece_of_isDigit digit]
      exact ih
  | constant constant _ ih =>
      rw [parens_cons, ofPiece_of_isConstant constant]
      exact ih
  | group _ ih =>
      rw [Nesting.depth_enter, Nesting.depth_owe] at ih
      rw [opened]
      exact ih
  | digit digit _ ih =>
      rw [parens_cons, ofPiece_of_isDigit digit]
      exact ih
  | ended _ _ ih => exact ih

end Piece

/-! ## Entries -/

/-- A text that spells a phrase is balanced. -/
theorem Spells.balanced {c : Category} {t : Text} {d : Phrase c} (spells : Spells t d) :
    t.Balanced := by
  apply Text.balanced_of_depthAfter
  rw [← Piece.parens_cut]
  exact spells.inOrder.depthAfter_parens

/-- **Only balanced entries are read**, whatever the limits: where an entry has a tree, and so
where it has a value, its own parentheses are balanced. -/
theorem Settings.balanced_of_read (s : Settings) (entry : Text) :
    (∀ r, s.read entry = .ok r → entry.Balanced) ∧
      ∀ lib v w, s.evaluate lib entry = .ok (v, w) → entry.Balanced := by
  have read (r : Reading) (done : s.read entry = .ok r) : entry.Balanced := by
    obtain ⟨d, spells, -⟩ := exists_phrase_of_read done
    exact spells.balanced
  refine ⟨read, fun lib v w done => ?_⟩
  obtain ⟨r, tree, -⟩ := evaluate_eq_ok_iff.1 done
  exact read r tree

/-- The pass adds a parenthesis on either side of the one that closes the first group. -/
theorem Settings.balanced_of_read_roots :
    let entry : Text := "√√(√4)+(1)"
    let r : Reading :=
      { normalized := "sqrt(sqrt(sqrt(4)))+(1)"
        tokens := [.name Func.sqrt.name, .openGroup, .name Func.sqrt.name, .openGroup,
          .name Func.sqrt.name, .openGroup, .number 4, .closeGroup, .closeGroup, .closeGroup,
          .operator .add, .openGroup, .number 1, .closeGroup]
        postfixList := [.number 4, .name Func.sqrt.name, .name Func.sqrt.name,
          .name Func.sqrt.name, .number 1, .operator .add]
        tree := .binary .add (.call .sqrt (.call .sqrt (.call .sqrt (.number 4)))) (.number 1) }
    read {} entry = .ok r ∧ entry.Balanced := by
  intro entry r
  have done : read {} entry = .ok r := rfl
  exact ⟨done, (balanced_of_read {} entry).1 r done⟩

end SciCalc
