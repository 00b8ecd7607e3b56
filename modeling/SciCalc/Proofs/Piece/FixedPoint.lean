/-
# SciCalc.Proofs.Piece.FixedPoint -- a normal form is its own normal form

What makes a text its own normal form can be said of the text alone
(`Text.Normal`): every character in it is one that is kept, no two side by side
are factors, and no word is the name of a constant.

* Every normal form is such a text (`normal_normalize`): its characters are those
  of well-formed pieces, its neighbours are apart by `Piece.isChain_write`, and
  its words are no constants by `Piece.ofWord?_of_mem_split_write`.
* Such a text is left as it is (`Text.Normal.normalize_eq`): its pieces spell it,
  none is a root sign, and no star is due between two of them.
-/
import SciCalc.Proofs.Piece.Words
import SciCalc.Proofs.Token.Names

namespace SciCalc

set_option autoImplicit false

namespace Text

/-- A text that normalization leaves as it is. -/
structure Normal (t : Text) : Prop where
  kept : ∀ c ∈ t, Kept c
  apart : t.IsChain Unjoined
  words : ∀ w, .word w ∈ Lexeme.split t → Constant.ofWord? w = none

/-- Whether a word stands in a text with no ASCII letter beside it. -/
def StandsIn (w t : Text) : Prop :=
  ∃ u v, t = u ++ (w ++ v) ∧ (∀ c ∈ u.getLast?, c.isAlpha = false) ∧
    ∀ c ∈ v.head?, c.isAlpha = false

end Text

/-- A constant is named by ASCII letters or by one letter that is none. -/
theorem Constant.eq_of_ofWord? {w : Text} {k : Constant} (named : ofWord? w = some k) :
    (w ≠ [] ∧ ∀ c ∈ w, c.isAlpha = true) ∨ w = ['π'] := by
  unfold ofWord? at named
  split at named
  · rename_i isPi
    rcases isPi with rfl | rfl
    · exact .inl ⟨by decide, List.all_eq_true.1 rfl⟩
    · exact .inr rfl
  · split at named
    · rename_i isEuler
      rw [isEuler]
      exact .inl ⟨by decide, List.all_eq_true.1 rfl⟩
    · cases named

namespace Lexeme

theorem spell_append (ls ms : List Lexeme) : spell (ls ++ ms) = spell ls ++ spell ms :=
  List.flatMap_append

/-- Letters with no letter beside them are a word. -/
theorem word_mem_split {w t : Text} (some : w ≠ []) (letters : ∀ c ∈ w, c.isAlpha = true)
    (standsIn : Text.StandsIn w t) : .word w ∈ split t := by
  obtain ⟨u, v, rfl, before, after⟩ := standsIn
  obtain ⟨left, l, r, rest, whole, ends⟩ := split_around some letters u v
  have drawn : (word (l ++ (w ++ r))).Drawn fun _ => True :=
    drawn_of_mem_split (by rw [whole]; simp)
  have letter : ∀ c ∈ l ++ (w ++ r), c.isAlpha = true := fun c member => (drawn.2 c member).2
  have begins : u = spell left ++ l := by
    have spelled := spell_split (u ++ (w ++ v))
    rw [whole, spell_append, ends] at spelled
    have both : u ++ (w ++ (r ++ spell rest)) = spell left ++ l ++ (w ++ (r ++ spell rest)) := by
      simpa [spell, text] using spelled.symm
    exact List.append_cancel_right both
  have noLeft : l = [] := by
    by_contra more
    have last : l.getLast more ∈ u.getLast? := by
      rw [begins, List.getLast?_append_of_ne_nil _ more, List.getLast?_eq_getLast_of_ne_nil more]
      rfl
    have isLetter := letter (l.getLast more) (List.mem_append_left _ (List.getLast_mem more))
    rw [before _ last] at isLetter
    cases isLetter
  have noRight : r = [] := by
    by_contra more
    have next : r.head more ∈ v.head? := by
      rw [ends, List.head?_append_of_ne_nil _ more, List.head?_eq_some_head more]
      rfl
    have isLetter := letter (r.head more) (by simp)
    rw [after _ next] at isLetter
    cases isLetter
  rw [whole, noLeft, noRight]
  simp

end Lexeme

namespace Piece

open Lexeme

/-! ## Normal forms are normal -/

theorem forall_mem_write {P : Char → Prop} (ofStar : P '*') {ps : List Piece}
    (all : ∀ p ∈ ps, ∀ c ∈ p.text, P c) : ∀ c ∈ write ps, P c := by
  induction ps with
  | nil => simp
  | cons p ps ih =>
      obtain ⟨first, others⟩ := List.forall_mem_cons.1 all
      obtain ⟨gap, shape, whole⟩ := exists_write_cons p ps
      rw [whole]
      refine List.forall_mem_append.2 ⟨first, List.forall_mem_append.2 ⟨?_, ih others⟩⟩
      rcases shape with rfl | rfl
      · simp
      · simpa using ofStar

theorem kept_star : Kept '*' := kept_of_ascii (by decide) (by decide) rfl

end Piece

/-- **Every normal form is normal.** -/
theorem normal_normalize (t : Text) : (normalize t).Normal := by
  have wellFormed := Piece.wellFormed_wrapRoots t
  refine ⟨?_, Piece.isChain_write wellFormed, ?_⟩
  · exact Piece.forall_mem_write Piece.kept_star fun p member => (wellFormed p member).kept
  · exact (Piece.ofWord?_of_mem_split_write wellFormed (Piece.isChain_wrapRoots t)).1

namespace Piece

open Lexeme

/-! ## Pieces that are written as they are -/

/-- Where nothing is owed, pieces that are no root signs stay as they are. -/
theorem wrapFrom_append_of_no_root {ps : List Piece} (noRoot : ∀ p ∈ ps, p ≠ root) {n : Nesting}
    (nothing : n.owed = []) (rest : List Piece) :
    ∃ m : Nesting, m.owed = [] ∧
      wrapFrom .plain n (ps ++ rest) = ps ++ wrapFrom .plain m rest := by
  induction ps generalizing n with
  | nil => exact ⟨n, nothing, rfl⟩
  | cons p ps ih =>
      obtain ⟨first, others⟩ := List.forall_mem_cons.1 noRoot
      have settled : settle n p = [p] := by
        unfold settle
        split
        · rename_i isClose
          simp [closeCalls, Nesting.due, nothing, isClose]
        · rfl
      have stays : (n.after p).owed = [] := by
        unfold Nesting.after
        split
        · exact nothing
        · split
          · simp [Nesting.leave, nothing]
          · exact nothing
      obtain ⟨m, still, whole⟩ := ih others stays
      refine ⟨m, still, ?_⟩
      rw [List.cons_append, wrapFrom, if_neg first, settled, whole]
      rfl

/-- Without root signs nothing is ever owed. -/
theorem wrapFrom_of_no_root {ps : List Piece} (noRoot : ∀ p ∈ ps, p ≠ root) {n : Nesting}
    (nothing : n.owed = []) : wrapFrom .plain n ps = ps := by
  obtain ⟨m, -, whole⟩ := wrapFrom_append_of_no_root noRoot nothing []
  simpa [wrapFrom] using whole

/-- Without factors side by side no star is written. -/
theorem write_of_isChain {ps : List Piece}
    (apart : ps.IsChain fun p q => p.multiplies q = false) : write ps = ps.flatMap text := by
  induction ps with
  | nil => rfl
  | cons p ps ih =>
      cases ps with
      | nil => simp
      | cons q ps =>
          have first : p.multiplies q = false := apart.rel
          rw [write_cons, between, first, ih apart.tail]
          simp

/-- Pieces whose texts are apart are no factors. -/
theorem multiplies_of_apart {p q : Piece} (first : p.WellFormed) (second : q.WellFormed)
    (noConstant : p.isConstant = false) (noConstant' : q.isConstant = false)
    (apart : ∀ a ∈ p.text.getLast?, ∀ b ∈ q.text.head?, Text.Unjoined a b) :
    p.multiplies q = false := by
  have last := List.getLast?_eq_getLast_of_ne_nil first.text_ne_nil
  have next := List.head?_eq_some_head second.text_ne_nil
  have unjoined := apart _ last _ next
  rw [Text.Unjoined, first.side _ (List.getLast_mem first.text_ne_nil),
    second.side _ (List.head_mem second.text_ne_nil)] at unjoined
  rw [multiplies_eq_joins first second noConstant noConstant', unjoined]

end Piece

namespace Text.Normal

open Lexeme Piece

variable {t : Text}

theorem cut_eq (normal : t.Normal) : cut t = (split t).flatMap ofLexeme := by
  rw [cut, shown_of_kept normal.kept]

/-- The pieces of a lexeme spell it, and none is a root sign or a constant. -/
theorem ofLexeme_spec (normal : t.Normal) {l : Lexeme} (member : l ∈ split t) :
    (ofLexeme l).flatMap Piece.text = l.text ∧
      ∀ p ∈ ofLexeme l, p ≠ root ∧ p.isConstant = false := by
  have drawn := drawn_split normal.kept l member
  cases l with
  | word w =>
      have small := map_toLower_of_kept fun c among => (drawn.2 c among).1
      have named := normal.words w member
      simp [ofLexeme, small, text_word_of_none named, Lexeme.text, isConstant, named]
  | numeral d =>
      refine ⟨?_, ?_⟩
      · simp [ofLexeme, Lexeme.text, Piece.text, List.flatMap_map]
      · intro p among
        obtain ⟨c, -, rfl⟩ := List.mem_map.1 among
        exact ⟨Piece.noConfusion, rfl⟩
  | char c =>
      obtain ⟨foreign, -⟩ := standsAlone_iff.1 (standsAlone_of_mem_split member)
      simp only [ofLexeme, List.mem_singleton, forall_eq, Piece.ofChar, if_neg drawn.noRoot]
      split
      · have noEuler : c ≠ 'e' := by
          rintro rfl
          cases foreign
        have named : Constant.ofWord? [c] = none := by
          simp [Constant.ofWord?, drawn.noPi, noEuler]
        simp [text_word_of_none named, Lexeme.text, isConstant, named]
      · simp [Piece.text, Lexeme.text, isConstant]

theorem cut_spec (normal : t.Normal) : ∀ p ∈ cut t, p.WellFormed ∧ p.isConstant = false := by
  intro p member
  have wellFormed := wellFormed_cut t p member
  rw [normal.cut_eq] at member
  obtain ⟨l, among, inside⟩ := List.mem_flatMap.1 member
  obtain ⟨noRoot, noConstant⟩ := (normal.ofLexeme_spec among).2 p inside
  exact ⟨wellFormed noRoot, noConstant⟩

theorem flatMap_text_cut (normal : t.Normal) : (cut t).flatMap Piece.text = t := by
  have each : (split t).flatMap (fun l => (ofLexeme l).flatMap Piece.text) = spell (split t) :=
    List.flatMap_congr fun l member => (normal.ofLexeme_spec member).1
  rw [normal.cut_eq, List.flatMap_assoc, each, spell_split]

/-- No piece of a normal text is rewritten. -/
theorem wrapRoots_cut (normal : t.Normal) : wrapRoots (cut t) = cut t := by
  refine wrapFrom_of_no_root ?_ rfl
  rintro p member rfl
  cases (normal.cut_spec root member).1

/-- The pieces of a normal text are written as it stands. -/
theorem write_cut (normal : t.Normal) : write (cut t) = t := by
  have apart : (cut t).IsChain fun p q => p.multiplies q = false := by
    -- the pieces spell the text, so their seams are neighbours in it
    have chars := normal.apart
    rw [← normal.flatMap_text_cut,
      isChain_flatMap fun p member => (normal.cut_spec p member).1.text_ne_nil] at chars
    refine chars.2.imp_of_mem_imp fun p q first second unjoined => ?_
    obtain ⟨wellFormed, noConstant⟩ := normal.cut_spec p first
    obtain ⟨wellFormed', noConstant'⟩ := normal.cut_spec q second
    exact multiplies_of_apart wellFormed wellFormed' noConstant noConstant' unjoined
  rw [write_of_isChain apart, normal.flatMap_text_cut]

/-- **A normal text is its own normal form.** -/
theorem normalize_eq (normal : t.Normal) : normalize t = t := by
  rw [normalize, normal.wrapRoots_cut, normal.write_cut]

/-- No word in a normal text names a constant, in large or small letters. -/
theorem ofWord?_of_standsIn (normal : t.Normal) {w : Text} (standsIn : Text.StandsIn w t) :
    Constant.ofWord? (w.map Char.toLower) = none := by
  have kept : ∀ c ∈ w, Kept c := by
    obtain ⟨u, v, rfl, -⟩ := standsIn
    exact fun c member => normal.kept c (by simp [member])
  rw [map_toLower_of_kept kept]
  cases named : Constant.ofWord? w with
  | none => rfl
  | some k =>
      -- the names of letters would be words, and the letter that is no ASCII letter is not kept
      rcases Constant.eq_of_ofWord? named with ⟨some, letters⟩ | rfl
      · rw [normal.words w (word_mem_split some letters standsIn)] at named
        cases named
      · exact absurd rfl (kept 'π' (by simp)).noPi

end Text.Normal

/-- **Normalization has its own results as fixed points**, whatever the entry: no white space, no
root sign and no constant is left, neither as a letter of its own nor as a word in large or small
letters. -/
theorem normalize_normalize (t : Text) :
    normalize (normalize t) = normalize t ∧
      (∀ c ∈ normalize t, isBlank c = false ∧ c ≠ '√' ∧ c ≠ 'π') ∧
      ¬ ∃ w k, Text.StandsIn w (normalize t) ∧
        Constant.ofWord? (w.map Char.toLower) = some k := by
  have normal := normal_normalize t
  refine ⟨normal.normalize_eq, fun c member => ?_, ?_⟩
  · have kept := normal.kept c member
    exact ⟨kept.visible, kept.noRoot, kept.noPi⟩
  · rintro ⟨w, k, standsIn, named⟩
    rw [normal.ofWord?_of_standsIn standsIn] at named
    cases named

/-- The root sign goes and leaves one word, the constants go, and the group stays open. -/
theorem normalize_normalize_one_word :
    let t : Text := "x√y 2π(E"
    normalize t = "xsqrty*2*3.141592653589793*(2.718281828459045".toList ∧
      normalize (normalize t) = normalize t ∧
      ('q' ∈ normalize t ∧ isBlank 'q' = false ∧ 'q' ≠ '√' ∧ 'q' ≠ 'π') ∧
      ¬ ∃ k, Text.StandsIn "E" (normalize t) ∧
        Constant.ofWord? ("E".toList.map Char.toLower) = some k := by
  intro t
  obtain ⟨again, kept, noConstant⟩ := normalize_normalize t
  have written : normalize t = "xsqrty*2*3.141592653589793*(2.718281828459045".toList := rfl
  have among : 'q' ∈ normalize t := by
    rw [written]
    decide
  exact ⟨written, again, ⟨among, kept 'q' among⟩, fun ⟨k, found⟩ => noConstant ⟨_, k, found⟩⟩

end SciCalc
