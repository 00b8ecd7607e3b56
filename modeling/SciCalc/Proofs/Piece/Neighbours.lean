/-
# SciCalc.Proofs.Piece.Neighbours -- what stands side by side in a normal form

To the character beside it a character is one of five things (`Side`), and two
characters side by side are factors of a product or not (`Side.joins`).  Every
character written for a piece is the same to its neighbours (`Piece.face`), so
whether a `*` has to stand between two pieces is a matter of those two sides.

The pieces of an entry are well-formed but for root signs
(`Piece.wellFormed_cut`), and so are all that are written
(`Piece.wellFormed_wrapRoots`).  In what is written for well-formed pieces no two
characters side by side are factors (`Piece.isChain_write`), whatever the pieces
are.
-/
import Mathlib
import SciCalc.Proofs.Piece.Wrapping

namespace SciCalc

set_option autoImplicit false

/-- Neighbours in a list that is made of parts stand in one part or at a seam. -/
theorem isChain_flatMap {α β : Type} {R : β → β → Prop} {f : α → List β} {xs : List α}
    (some : ∀ x ∈ xs, f x ≠ []) :
    (xs.flatMap f).IsChain R ↔ (∀ x ∈ xs, (f x).IsChain R) ∧
      xs.IsChain fun x y => ∀ a ∈ (f x).getLast?, ∀ b ∈ (f y).head?, R a b := by
  have noEmpty : [] ∉ xs.map f := by
    intro empty
    obtain ⟨x, member, none⟩ := List.mem_map.1 empty
    exact some x member none
  rw [List.flatMap_def, List.isChain_flatten noEmpty, List.isChain_map]
  simp only [List.forall_mem_map]

/-! ## Characters side by side -/

/-- What a character is to the one beside it. -/
inductive Side where
  /-- A digit or a point. -/
  | digit
  | letter
  /-- An opening parenthesis. -/
  | opens
  /-- A closing parenthesis or the sign of the factorial. -/
  | closes
  | plain
  deriving DecidableEq

namespace Side

/-- What a character is. -/
def ofChar (c : Char) : Side :=
  if Decimal.isNumeral c then digit
  else if isLetter c then letter
  else if c = '(' then opens
  else if c = ')' ∨ c = '!' then closes
  else plain

/-- Whether the second multiplies the first that it follows. -/
def joins : Side → Side → Bool
  | digit, letter | digit, opens => true
  | letter, digit => true
  | closes, digit | closes, letter | closes, opens => true
  | _, _ => false

theorem joins_self (s : Side) : s.joins s = false := by cases s <;> rfl

theorem joins_plain (s : Side) : s.joins plain = false := by cases s <;> rfl

theorem ofChar_of_isNumeral {c : Char} (numeral : Decimal.isNumeral c = true) :
    ofChar c = digit :=
  if_pos numeral

theorem ofChar_of_isLetter {c : Char} (isLetter : isLetter c = true) : ofChar c = letter := by
  have noNumeral : ¬ Decimal.isNumeral c = true := by
    intro numeral
    rw [isLetter_eq_false_of_isNumeral numeral] at isLetter
    cases isLetter
  rw [ofChar, if_neg noNumeral, if_pos isLetter]

end Side

/-- Characters side by side that are no factors. -/
def Text.Unjoined (a b : Char) : Prop := (Side.ofChar a).joins (Side.ofChar b) = false

open Text (Unjoined)

/-- A character that a second normalization would keep. -/
structure Kept (c : Char) : Prop where
  visible : isBlank c = false
  meant : Piece.plainSign c = c
  noRoot : c ≠ '√'
  noPi : c ≠ 'π'
  small : c.toLower = c

theorem map_toLower_of_kept {w : Text} (kept : ∀ c ∈ w, Kept c) : w.map Char.toLower = w :=
  (List.map_congr_left fun c member => (kept c member).small).trans (List.map_id' w)

/-- Visible characters that mean themselves are read as they are. -/
theorem shown_of_clear {t : Text} (clear : ∀ c ∈ t, isBlank c = false ∧ Piece.plainSign c = c) :
    t.withoutBlanks.map Piece.plainSign = t := by
  have visible : t.withoutBlanks = t :=
    List.filter_eq_self.2 fun c member => by simpa using (clear c member).1
  rw [visible]
  exact (List.map_congr_left fun c member => (clear c member).2).trans (List.map_id' t)

/-- Characters that are kept are read as they are. -/
theorem shown_of_kept {t : Text} (kept : ∀ c ∈ t, Kept c) :
    t.withoutBlanks.map Piece.plainSign = t :=
  shown_of_clear fun c member => ⟨(kept c member).visible, (kept c member).meant⟩

theorem kept_of_ascii {c : Char} (low : 0x21 ≤ c.toNat) (high : c.toNat < 0x80)
    (small : c.toLower = c) : Kept c := by
  have other {d : Char} (far : 0x80 ≤ d.toNat) : c ≠ d := by
    rintro rfl
    omega
  refine ⟨isBlank_eq_false_of_visible low (by omega), ?_, other (by decide), other (by decide),
    small⟩
  unfold Piece.plainSign
  rw [if_neg (other (by decide)), if_neg (other (by decide)), if_neg (other (by decide))]

/-- ASCII letters alone have a lower case. -/
theorem toLower_of_not_isAlpha {c : Char} (foreign : c.isAlpha = false) : c.toLower = c := by
  apply Char.toLower_eq_of_not_isUpper
  simp only [Char.isAlpha, Bool.or_eq_false_iff] at foreign
  simp [foreign.1]

theorem kept_of_isNumeral {c : Char} (numeral : Decimal.isNumeral c = true) : Kept c := by
  have small := toLower_of_not_isAlpha (isAlpha_eq_false_of_isNumeral numeral)
  rw [isNumeral_iff] at numeral
  exact kept_of_ascii (by omega) (by omega) small

theorem kept_of_isAlpha {c : Char} (letter : c.isAlpha = true) (small : c.toLower = c) :
    Kept c := by
  rw [isAlpha_iff] at letter
  exact kept_of_ascii (by omega) (by omega) small

namespace Piece

open Lexeme

/-! ## Pieces without root signs -/

/-- The pieces that are written: those of an entry but for root signs. -/
inductive WellFormed : Piece → Prop
  | digit {c : Char} (numeral : Decimal.isNumeral c = true) : WellFormed (digit c)
  | letters {w : Text} (some : w ≠ []) (small : ∀ c ∈ w, c.isAlpha = true ∧ c.toLower = c) :
      WellFormed (word w)
  | letter {c : Char} (single : isLetter c = true) (foreign : c.isAlpha = false)
      (visible : isBlank c = false) (meant : plainSign c = c) (noRoot : c ≠ '√') :
      WellFormed (word [c])
  | other {c : Char} (noLetter : isLetter c = false) (noNumeral : Decimal.isNumeral c = false)
      (visible : isBlank c = false) (meant : plainSign c = c) (noRoot : c ≠ '√') :
      WellFormed (other c)

theorem wellFormed_sqrt : sqrt.WellFormed := by
  have small : "sqrt".toList.all (fun c => c.isAlpha && c.toLower == c) = true := rfl
  refine .letters (by decide) fun c member => ?_
  simpa using List.all_eq_true.1 small c member

theorem wellFormed_opening : opening.WellFormed :=
  .other rfl rfl rfl rfl (by decide)

theorem wellFormed_closing : closing.WellFormed :=
  .other rfl rfl rfl rfl (by decide)

/-- The piece that a lexeme's character is. -/
theorem wellFormed_ofChar {c : Char} (alone : standsAlone c = true) (visible : isBlank c = false)
    (meant : plainSign c = c) (noRoot : ofChar c ≠ root) : (ofChar c).WellFormed := by
  have apart : c ≠ '√' := by
    rintro rfl
    exact noRoot rfl
  obtain ⟨noAscii, noNumeral⟩ := standsAlone_iff.1 alone
  unfold ofChar
  rw [if_neg apart]
  split
  · rename_i single
    exact .letter single noAscii visible meant apart
  · rename_i noLetter
    exact .other (by simpa using noLetter) noNumeral visible meant apart

end Piece

namespace Lexeme

/-! ## Lexemes side by side -/

/-- Whether two lexemes would have been one. -/
def alike : Lexeme → Lexeme → Bool
  | word _, word _ => true
  | numeral _, numeral _ => true
  | _, _ => false

/-- Words and numerals are cut as long as they are. -/
theorem isChain_split (t : Text) : (split t).IsChain fun a b => alike a b = false := by
  induction t with
  | nil => exact .nil
  | cons c t ih =>
      rw [split_cons]
      generalize split t = ls at ih
      unfold push
      split
      · split
        · exact ih.imp_head fun {l} apart => by cases l <;> exact apart
        · rename_i noWord
          refine ih.cons fun l first => ?_
          cases l with
          | word w => cases ls <;> simp_all
          | _ => rfl
      · split
        · split
          · exact ih.imp_head fun {l} apart => by cases l <;> exact apart
          · rename_i noNumeral
            refine ih.cons fun l first => ?_
            cases l with
            | numeral d => cases ls <;> simp_all
            | _ => rfl
        · exact ih.cons fun _ _ => rfl

/-- A word of a text is letters and a numeral is digits and points, at least one. -/
theorem drawn_of_mem_split {l : Lexeme} {t : Text} (member : l ∈ split t) :
    l.Drawn fun _ => True :=
  drawn_split (fun _ _ => trivial) l member

theorem Drawn.text_ne_nil {class' : Char → Prop} {l : Lexeme} (drawn : l.Drawn class') :
    l.text ≠ [] := by
  cases l with
  | char c => exact List.cons_ne_nil c []
  | _ => exact drawn.1

theorem Drawn.of_mem {class' : Char → Prop} {l : Lexeme} (drawn : l.Drawn class') {c : Char}
    (member : c ∈ l.text) : class' c := by
  cases l with
  | char d =>
      rw [List.mem_singleton.1 member]
      exact drawn
  | _ => exact (drawn.2 c member).1

theorem Drawn.mono {class' wider : Char → Prop} {l : Lexeme} (drawn : l.Drawn class')
    (more : ∀ c, class' c → wider c) : l.Drawn wider := by
  cases l with
  | char d => exact more d drawn
  | _ => exact ⟨drawn.1, fun c member => (drawn.2 c member).imp_left (more c)⟩

theorem text_ne_nil {l : Lexeme} {t : Text} (member : l ∈ split t) : l.text ≠ [] :=
  (drawn_of_mem_split member).text_ne_nil

/-- A text begins with a character of its first lexeme. -/
theorem exists_head_of_split {l : Lexeme} {ls : List Lexeme} {t : Text}
    (found : split t = l :: ls) : ∃ c ∈ l.text, t.head? = some c ∧ l.Drawn fun _ => True := by
  have member : l ∈ split t := found ▸ List.mem_cons_self ..
  have some := text_ne_nil member
  refine ⟨l.text.head some, List.head_mem some, ?_, drawn_of_mem_split member⟩
  rw [← spell_split t, found, spell, List.flatMap_cons, List.head?_append_of_ne_nil _ some,
    List.head?_eq_some_head some]

/-- **A text is cut where no word and no numeral goes on.** -/
theorem split_append {t u : Text}
    (words : ∀ a ∈ t.getLast?, ∀ b ∈ u.head?, a.isAlpha = true → b.isAlpha = false)
    (numerals : ∀ a ∈ t.getLast?, ∀ b ∈ u.head?,
      Decimal.isNumeral a = true → Decimal.isNumeral b = false) :
    split (t ++ u) = split t ++ split u := by
  induction t with
  | nil => rfl
  | cons c t ih =>
      rw [List.cons_append, split_cons, split_cons]
      cases t with
      | nil =>
          -- what follows goes into the lexeme of the character only if it is of its kind
          rw [List.nil_append, split_nil]
          by_cases letter : c.isAlpha = true
          · simp only [push, if_pos letter]
            split
            · rename_i w more found
              obtain ⟨b, among, head, drawn⟩ := exists_head_of_split found
              have goesOn := (drawn.2 b among).2
              rw [words c rfl b head letter] at goesOn
              cases goesOn
            · rfl
          · by_cases digit : Decimal.isNumeral c = true
            · simp only [push, if_neg letter, if_pos digit]
              split
              · rename_i d more found
                obtain ⟨b, among, head, drawn⟩ := exists_head_of_split found
                have goesOn := (drawn.2 b among).2
                rw [numerals c rfl b head digit] at goesOn
                cases goesOn
              · rfl
            · simp [push, letter, digit]
      | cons d t =>
          rw [ih words numerals]
          cases shape : split (d :: t) with
          | nil =>
              have nothing := spell_split (d :: t)
              rw [shape] at nothing
              cases nothing
          | cons l ls => exact push_cons_append c l ls (split u)

/-- What lexemes spell begins with a character of the first one. -/
theorem exists_head_of_spell {ls : List Lexeme} (drawn : ∀ l ∈ ls, l.Drawn fun _ => True)
    {c : Char} (first : (spell ls).head? = some c) :
    ∃ l more, ls = l :: more ∧ c ∈ l.text := by
  cases ls with
  | nil => cases first
  | cons l more =>
      have some := (drawn l (List.mem_cons_self ..)).text_ne_nil
      rw [spell, List.flatMap_cons, List.head?_append_of_ne_nil _ some] at first
      exact ⟨l, more, rfl, List.mem_of_mem_head? first⟩

/-- **Lexemes that are as long as they can be** are those of the text that they spell. -/
theorem split_spell {ls : List Lexeme} (drawn : ∀ l ∈ ls, l.Drawn fun _ => True)
    (alone : ∀ c, char c ∈ ls → standsAlone c = true)
    (apart : ls.IsChain fun a b => alike a b = false) : split (spell ls) = ls := by
  induction ls with
  | nil => rfl
  | cons l ls ih =>
      obtain ⟨first, others⟩ := List.forall_mem_cons.1 drawn
      have aloneOthers : ∀ c, char c ∈ ls → standsAlone c = true :=
        fun c member => alone c (List.mem_cons_of_mem l member)
      have rest := ih others aloneOthers apart.tail
      have whole : spell (l :: ls) = l.text ++ spell ls := rfl
      -- a character of the kind of a run would belong to a lexeme like it
      have next {b : Char} (begins : b ∈ (spell ls).head?) :
          (b.isAlpha = true → ∃ w more, ls = word w :: more) ∧
            (Decimal.isNumeral b = true → ∃ d more, ls = numeral d :: more) := by
        obtain ⟨m, more, rfl, among⟩ := exists_head_of_spell others begins
        have kind := others m (List.mem_cons_self ..)
        cases m with
        | word w =>
            have letter := (kind.2 b among).2
            refine ⟨fun _ => ⟨w, more, rfl⟩, fun digit => ?_⟩
            rw [isAlpha_eq_false_of_isNumeral digit] at letter
            cases letter
        | numeral d =>
            refine ⟨fun letter => ?_, fun _ => ⟨d, more, rfl⟩⟩
            rw [isAlpha_eq_false_of_isNumeral (kind.2 b among).2] at letter
            cases letter
        | char c =>
            obtain rfl := List.mem_singleton.1 among
            obtain ⟨noLetter, noNumeral⟩ :=
              standsAlone_iff.1 (aloneOthers b (List.mem_cons_self ..))
            simp [noLetter, noNumeral]
      cases l with
      | char c => rw [whole, text, List.singleton_append,
          split_cons_of_standsAlone (alone c (List.mem_cons_self ..)), rest]
      | word w =>
          rw [whole, text, split_append, split_word first.1 fun c member => (first.2 c member).2,
            rest, List.singleton_append]
          · intro a last b begins _
            by_contra letter
            obtain ⟨v, more, rfl⟩ := (next begins).1 (by simpa using letter)
            cases apart.rel
          · intro a last b begins digit
            have letter := (first.2 a (List.mem_of_mem_getLast? last)).2
            rw [isAlpha_eq_false_of_isNumeral digit] at letter
            cases letter
      | numeral d =>
          rw [whole, text, split_append, split_numeral first.1 fun c member => (first.2 c member).2,
            rest, List.singleton_append]
          · intro a last b begins letter
            have digit := (first.2 a (List.mem_of_mem_getLast? last)).2
            rw [isAlpha_eq_false_of_isNumeral digit] at letter
            cases letter
          · intro a last b begins _
            by_contra digit
            obtain ⟨e, more, rfl⟩ := (next begins).2 (by simpa using digit)
            cases apart.rel

/-- A character that is a lexeme by itself is neither a letter nor part of a numeral. -/
theorem standsAlone_of_mem_split {c : Char} {t : Text} (member : char c ∈ split t) :
    standsAlone c = true := by
  induction t with
  | nil => cases member
  | cons d t ih =>
      rw [split_cons] at member
      unfold push at member
      split at member
      · split at member <;> simp_all
      · split at member
        · split at member <;> simp_all
        · rcases List.mem_cons.1 member with same | member
          · obtain rfl := Lexeme.char.inj same
            simp_all [standsAlone]
          · exact ih member

end Lexeme

namespace Piece

open Lexeme

/-! ## The side of a piece -/

/-- What the characters written for a piece are to their neighbours. -/
def face : Piece → Side
  | digit _ => .digit
  | word w => if (Constant.ofWord? w).isSome then .digit else .letter
  | other c => Side.ofChar c
  | root => .letter

theorem isNumeral_of_mem_numeral (k : Constant) :
    ∀ c ∈ k.numeral, Decimal.isNumeral c = true := by
  cases k <;> exact List.all_eq_true.1 rfl

theorem text_word_of_some {w : Text} {k : Constant} (named : Constant.ofWord? w = some k) :
    (word w).text = k.numeral := by
  simp [text, named]

theorem WellFormed.text_ne_nil {p : Piece} (wellFormed : p.WellFormed) : p.text ≠ [] := by
  have ofWord {w : Text} (some : w ≠ []) : (word w).text ≠ [] := by
    cases named : Constant.ofWord? w with
    | none => rwa [text_word_of_none named]
    | some k =>
        rw [text_word_of_some named]
        cases k <;> decide
  cases wellFormed with
  | digit => exact List.cons_ne_nil _ _
  | letters some => exact ofWord some
  | letter => exact ofWord (List.cons_ne_nil _ _)
  | other => exact List.cons_ne_nil _ _

/-- Whatever is written for a piece is kept by a second normalization. -/
theorem WellFormed.kept {p : Piece} (wellFormed : p.WellFormed) : ∀ c ∈ p.text, Kept c := by
  have ofWord {w : Text} (letters : Constant.ofWord? w = none → ∀ c ∈ w, Kept c) :
      ∀ c ∈ (word w).text, Kept c := by
    cases named : Constant.ofWord? w with
    | none =>
        rw [text_word_of_none named]
        exact letters named
    | some k =>
        rw [text_word_of_some named]
        exact fun c member => kept_of_isNumeral (isNumeral_of_mem_numeral k c member)
  cases wellFormed with
  | digit numeral => simpa [text] using kept_of_isNumeral numeral
  | letters _ small =>
      refine ofWord fun _ c member => ?_
      obtain ⟨letter, same⟩ := small c member
      exact kept_of_isAlpha letter same
  | @letter c single foreign visible meant noRoot =>
      refine ofWord fun noConstant => ?_
      have noPi : c ≠ 'π' := by
        rintro rfl
        cases noConstant
      simpa using ⟨visible, meant, noRoot, noPi, toLower_of_not_isAlpha foreign⟩
  | @other c noLetter noNumeral visible meant noRoot =>
      have noPi : c ≠ 'π' := by
        rintro rfl
        cases noLetter
      have foreign := isAlpha_eq_false_of_not_isLetter noLetter
      simpa [text] using ⟨visible, meant, noRoot, noPi, toLower_of_not_isAlpha foreign⟩

/-- Whatever is written for a piece shows one side. -/
theorem WellFormed.side {p : Piece} (wellFormed : p.WellFormed) :
    ∀ c ∈ p.text, Side.ofChar c = p.face := by
  have ofWord {w : Text} (letters : ∀ c ∈ w, isLetter c = true) :
      ∀ c ∈ (word w).text, Side.ofChar c = (word w).face := by
    cases named : Constant.ofWord? w with
    | none =>
        rw [text_word_of_none named]
        simp only [face, named]
        exact fun c member => Side.ofChar_of_isLetter (letters c member)
    | some k =>
        rw [text_word_of_some named]
        simp only [face, named]
        exact fun c member => Side.ofChar_of_isNumeral (isNumeral_of_mem_numeral k c member)
  cases wellFormed with
  | digit numeral => simpa [text, face] using Side.ofChar_of_isNumeral numeral
  | letters _ small => exact ofWord fun c member => isLetter_of_isAlpha (small c member).1
  | letter single => exact ofWord (by simpa using single)
  | other => simp [text, face]

/-- What a character that is a piece by itself is to its neighbours. -/
theorem face_other_of_wellFormed {c : Char} (wellFormed : WellFormed (other c)) :
    face (other c) =
      if c = '(' then Side.opens else if c = ')' ∨ c = '!' then Side.closes else Side.plain := by
  cases wellFormed with
  | other noLetter noNumeral => simp [face, Side.ofChar, noLetter, noNumeral]

theorem face_word_of_none {w : Text} (noConstant : (word w).isConstant = false) :
    (word w).face = .letter := by
  simp only [isConstant] at noConstant
  simp [face, noConstant]

/-- **Between pieces that are no constants the sides decide.** -/
theorem multiplies_eq_joins {p q : Piece} (first : p.WellFormed) (second : q.WellFormed)
    (noConstant : p.isConstant = false) (noConstant' : q.isConstant = false) :
    p.multiplies q = p.face.joins q.face := by
  cases p with
  | root => cases first
  | digit c =>
      cases q with
      | root => cases second
      | digit d => rfl
      | word w =>
          rw [face_word_of_none noConstant']
          rfl
      | other d =>
          rw [face_other_of_wellFormed second]
          by_cases isOpen : d = '(' <;> by_cases isClose : d = ')' ∨ d = '!' <;>
            simp [multiplies, face, Side.joins, isOpen, isClose]
  | word w =>
      rw [face_word_of_none noConstant]
      cases q with
      | root => cases second
      | digit d => rfl
      | word v =>
          rw [face_word_of_none noConstant']
          simp [multiplies, noConstant, noConstant', Side.joins]
      | other d =>
          rw [face_other_of_wellFormed second]
          by_cases isOpen : d = '(' <;> by_cases isClose : d = ')' ∨ d = '!' <;>
            simp [multiplies, noConstant, Side.joins, isOpen, isClose]
  | other c =>
      rw [face_other_of_wellFormed first]
      cases q with
      | root => cases second
      | digit d =>
          by_cases isOpen : c = '(' <;> by_cases isClose : c = ')' ∨ c = '!' <;>
            simp_all [multiplies, face, Side.joins]
      | word w =>
          rw [face_word_of_none noConstant']
          by_cases isOpen : c = '(' <;> by_cases isClose : c = ')' ∨ c = '!' <;>
            simp_all [multiplies, Side.joins]
      | other d =>
          rw [face_other_of_wellFormed second]
          by_cases isOpen : c = '(' <;> by_cases isClose : c = ')' ∨ c = '!' <;>
            by_cases isOpen' : d = '(' <;> by_cases isClose' : d = ')' ∨ d = '!' <;>
              simp_all [multiplies, Side.joins]

theorem face_of_isConstant {p : Piece} (constant : p.isConstant = true) : p.face = .digit := by
  cases p with
  | word w =>
      simp only [isConstant] at constant
      simp [face, constant]
  | _ => cases constant

/-- Pieces that are no factors show sides that are none. -/
theorem joins_face {p q : Piece} (first : p.WellFormed) (second : q.WellFormed)
    (apart : p.multiplies q = false) : p.face.joins q.face = false := by
  by_cases constant : p.isConstant = true
  · -- a constant multiplies all that a numeral does, and numerals too
    rw [face_of_isConstant constant]
    cases p with
    | word w =>
        cases q with
        | root => cases second
        | digit d => cases apart
        | word v => simp [multiplies, constant] at apart
        | other d =>
            have noOpen : d ≠ '(' := by simpa [multiplies, constant] using apart
            rw [face_other_of_wellFormed second, if_neg noOpen]
            split <;> rfl
    | _ => cases constant
  by_cases constant' : q.isConstant = true
  · rw [face_of_isConstant constant']
    cases q with
    | word v =>
        cases p with
        | root => cases first
        | digit c => cases apart
        | word w => simp [multiplies, constant'] at apart
        | other c =>
            have noClose : ¬ (c = ')' ∨ c = '!') := by simpa [multiplies] using apart
            rw [face_other_of_wellFormed first, if_neg noClose]
            split <;> rfl
    | _ => cases constant'
  · rw [← multiplies_eq_joins first second (by simpa using constant) (by simpa using constant'),
      apart]

/-! ## Pieces written side by side -/

/-- What is written for a piece is apart from what follows it. -/
theorem WellFormed.isChain_text {p : Piece} (wellFormed : p.WellFormed) :
    p.text.IsChain Unjoined := by
  refine (List.pairwise_of_forall_mem_list fun a first b second => ?_).isChain
  rw [Unjoined, wellFormed.side a first, wellFormed.side b second]
  exact Side.joins_self _

/-- **In what is written no two characters side by side are factors.** -/
theorem isChain_write {ps : List Piece} (wellFormed : ∀ p ∈ ps, p.WellFormed) :
    (write ps).IsChain Unjoined := by
  induction ps with
  | nil => exact .nil
  | cons p ps ih =>
      obtain ⟨first, others⟩ := List.forall_mem_cons.1 wellFormed
      cases ps with
      | nil => exact first.isChain_text
      | cons q ps =>
          have second := others q (List.mem_cons_self ..)
          rw [write_cons, List.append_assoc]
          refine first.isChain_text.append ?_ ?_
          · unfold between
            split
            · exact (ih others).cons fun _ _ => rfl
            · exact ih others
          · intro a last b next
            unfold between at next
            split at next
            · -- the star is no factor
              obtain rfl := Option.some.inj next
              exact Side.joins_plain _
            · rename_i apart
              rw [List.nil_append, head_write second.text_ne_nil] at next
              rw [Unjoined, first.side a (List.mem_of_mem_getLast? last),
                second.side b (List.mem_of_mem_head? next)]
              exact joins_face first second (by simpa using apart)

/-! ## The pieces of an entry -/

theorem plainSign_plainSign (c : Char) : plainSign (plainSign c) = plainSign c := by
  by_cases times : c = '×'
  · rw [times]; rfl
  by_cases divided : c = '÷'
  · rw [divided]; rfl
  by_cases minus : c = '−'
  · rw [minus]; rfl
  · simp [plainSign, times, divided, minus]

theorem wellFormed_ofLexeme {l : Lexeme}
    (drawn : l.Drawn fun c => isBlank c = false ∧ plainSign c = c)
    (alone : ∀ c, l = char c → standsAlone c = true) :
    ∀ p ∈ ofLexeme l, p ≠ root → p.WellFormed := by
  cases l with
  | word w =>
      obtain ⟨some, letters⟩ := drawn
      simp only [ofLexeme, List.mem_singleton, forall_eq]
      refine fun _ => .letters (by simpa using some) fun c member => ?_
      obtain ⟨d, among, rfl⟩ := List.mem_map.1 member
      exact ⟨isAlpha_toLower (letters d among).2, Char.toLower_toLower_eq_toLower d⟩
  | numeral d =>
      intro p member _
      obtain ⟨c, among, rfl⟩ := List.mem_map.1 member
      exact .digit (drawn.2 c among).2
  | char c =>
      simp only [ofLexeme, List.mem_singleton, forall_eq]
      exact wellFormed_ofChar (alone c rfl) drawn.1 drawn.2

/-- The characters of an entry that its pieces are made of. -/
theorem seen_of_mem {t : Text} :
    ∀ c ∈ t.withoutBlanks.map plainSign, isBlank c = false ∧ plainSign c = c := by
  intro c member
  obtain ⟨d, among, rfl⟩ := List.mem_map.1 member
  have shown := (List.mem_filter.1 among).2
  exact ⟨isBlank_plainSign (by simpa using shown), plainSign_plainSign d⟩

theorem wellFormed_cut (t : Text) : ∀ p ∈ cut t, p ≠ root → p.WellFormed := by
  intro p member
  obtain ⟨l, among, inside⟩ := List.mem_flatMap.1 member
  refine wellFormed_ofLexeme (drawn_split seen_of_mem l among) ?_ p inside
  rintro c rfl
  exact standsAlone_of_mem_split among

/-- **The pieces that are written are well-formed.** -/
theorem wellFormed_wrapRoots (t : Text) : ∀ p ∈ wrapRoots (cut t), p.WellFormed :=
  forall_wrapFrom wellFormed_sqrt wellFormed_opening wellFormed_closing (wellFormed_cut t) .plain {}

end Piece

end SciCalc
