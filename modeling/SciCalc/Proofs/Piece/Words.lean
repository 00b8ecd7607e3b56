/-
# SciCalc.Proofs.Piece.Words -- the words of what is written

A word of what is written for pieces need not be one of the pieces: the names of
square roots grow together with the words around them.  Two other words of ASCII
letters are never side by side (`Piece.isChain_wrapRoots`), so a word that has
grown is no shorter than the name of the square root.  No constant has a name so
long, and no word that has not grown is one, being written as its numeral
(`Piece.ofWord?_of_mem_split_write`).
-/
import SciCalc.Proofs.Piece.Neighbours

namespace SciCalc

set_option autoImplicit false

namespace Lexeme

/-! ## Texts put together -/

/-- Letters go into the word that follows, if one does. -/
theorem split_append_of_letters {w : Text} (some : w ≠ []) (letters : ∀ c ∈ w, c.isAlpha = true)
    (t : Text) :
    (∃ r rest, split t = word r :: rest ∧ split (w ++ t) = word (w ++ r) :: rest) ∨
      (∀ r rest, split t ≠ word r :: rest) ∧ split (w ++ t) = word w :: split t := by
  induction w with
  | nil => exact absurd rfl some
  | cons c w ih =>
      obtain ⟨letter, others⟩ := List.forall_mem_cons.1 letters
      rw [List.cons_append, split_cons]
      by_cases last : w = []
      · subst last
        unfold push
        rw [List.nil_append, if_pos letter]
        split
        · exact .inl ⟨_, _, by assumption, rfl⟩
        · exact .inr ⟨by assumption, rfl⟩
      · rcases ih last others with ⟨r, rest, first, whole⟩ | ⟨noWord, whole⟩
        · exact .inl ⟨r, rest, first, by rw [whole, push, if_pos letter]; rfl⟩
        · exact .inr ⟨noWord, by rw [whole, push, if_pos letter]⟩

/-- Before other characters no word begins, and there is no word but those that follow. -/
theorem words_append_of_no_letters {u : Text} (some : u ≠ [])
    (noLetters : ∀ c ∈ u, c.isAlpha = false) (t : Text) :
    (∀ r rest, split (u ++ t) ≠ word r :: rest) ∧
      ∀ r, word r ∈ split (u ++ t) → word r ∈ split t := by
  induction u with
  | nil => exact absurd rfl some
  | cons c u ih =>
      obtain ⟨noLetter, others⟩ := List.forall_mem_cons.1 noLetters
      have within : ∀ r, word r ∈ split (u ++ t) → word r ∈ split t := by
        by_cases last : u = []
        · subst last
          exact fun _ member => member
        · exact (ih last others).2
      rw [List.cons_append, split_cons]
      constructor
      · intro r rest
        simp only [push, noLetter, Bool.false_eq_true, if_false]
        split
        · split <;> simp
        · simp
      · intro r member
        apply within r
        simp only [push, noLetter, Bool.false_eq_true, if_false] at member
        split at member
        · split at member <;> simp_all
        · simp_all

end Lexeme

namespace Piece

open Lexeme

/-! ## Words side by side -/

/-- Whether a piece is a run of ASCII letters. -/
def isRun : Piece → Bool
  | word w => w.all Char.isAlpha
  | _ => false

/-- The pieces that wrapping puts in. -/
def Scaffold (p : Piece) : Prop := p = sqrt ∨ p = opening ∨ p = closing

/-- Runs of letters side by side, of which one is the name of the square root. -/
def Parted (p q : Piece) : Prop := p.isRun = true → q.isRun = true → p = sqrt ∨ q = sqrt

theorem parted_of_left {p : Piece} (noRun : p.isRun = false) (q : Piece) : Parted p q := by
  intro isRun
  rw [noRun] at isRun
  cases isRun

theorem parted_of_right {q : Piece} (noRun : q.isRun = false) (p : Piece) : Parted p q := by
  intro _ isRun
  rw [noRun] at isRun
  cases isRun

theorem Scaffold.parted_left {p : Piece} (scaffold : p.Scaffold) (q : Piece) : Parted p q := by
  rcases scaffold with rfl | rfl | rfl
  · exact fun _ _ => .inl rfl
  · exact parted_of_left rfl q
  · exact parted_of_left rfl q

theorem Scaffold.parted_right {q : Piece} (scaffold : q.Scaffold) (p : Piece) : Parted p q := by
  rcases scaffold with rfl | rfl | rfl
  · exact fun _ _ => .inr rfl
  · exact parted_of_right rfl p
  · exact parted_of_right rfl p

/-- Only of words are the pieces runs of letters. -/
theorem isRun_eq_false_of_mem {l : Lexeme} {t : Text} (member : l ∈ split t)
    (noWord : ∀ w, l ≠ .word w) : ∀ p ∈ ofLexeme l, p.isRun = false := by
  cases l with
  | word w => exact absurd rfl (noWord w)
  | numeral d =>
      intro p among
      obtain ⟨c, -, rfl⟩ := List.mem_map.1 among
      rfl
  | char c =>
      obtain ⟨noAscii, -⟩ := standsAlone_iff.1 (standsAlone_of_mem_split member)
      simp only [ofLexeme, List.mem_singleton, forall_eq]
      unfold ofChar
      split
      · rfl
      · split
        · simp [isRun, noAscii]
        · rfl

theorem isChain_ofLexeme (l : Lexeme) : (ofLexeme l).IsChain Parted := by
  cases l with
  | numeral d =>
      refine (List.pairwise_of_forall_mem_list fun p first q _ => ?_).isChain
      obtain ⟨c, -, rfl⟩ := List.mem_map.1 first
      exact parted_of_left rfl q
  | _ => exact .singleton _

theorem ofLexeme_ne_nil {l : Lexeme} {t : Text} (member : l ∈ split t) : ofLexeme l ≠ [] := by
  cases l with
  | numeral d => simpa [ofLexeme] using (drawn_of_mem_split member).1
  | _ => exact List.cons_ne_nil _ _

/-- **The words of an entry are cut as long as they are.** -/
theorem isChain_cut (t : Text) : (cut t).IsChain Parted := by
  rw [cut, isChain_flatMap fun l member => ofLexeme_ne_nil member]
  refine ⟨fun l _ => isChain_ofLexeme l, (isChain_split _).imp_of_mem_imp ?_⟩
  intro a b first second apart p last q next
  by_cases isWord : ∃ w, a = .word w
  · obtain ⟨w, rfl⟩ := isWord
    have noWord : ∀ v, b ≠ .word v := by
      rintro v rfl
      cases apart
    exact parted_of_right (isRun_eq_false_of_mem second noWord q (List.mem_of_mem_head? next)) p
  · have noWord : ∀ w, a ≠ .word w := fun w same => isWord ⟨w, same⟩
    exact parted_of_left (isRun_eq_false_of_mem first noWord p (List.mem_of_mem_getLast? last)) q

/-! ## Words around root signs -/

theorem isChain_append_of_scaffold {xs ys : List Piece} (scaffold : ∀ p ∈ xs, p.Scaffold)
    (parted : ys.IsChain Parted) : (xs ++ ys).IsChain Parted := by
  induction xs with
  | nil => exact parted
  | cons p xs ih =>
      obtain ⟨first, others⟩ := List.forall_mem_cons.1 scaffold
      exact (ih others).cons fun q _ => first.parted_left q

theorem scaffold_openCalls (n : Nat) : ∀ p ∈ openCalls n, p.Scaffold := by
  induction n with
  | zero => simp [openCalls]
  | succ n ih =>
      exact List.forall_mem_cons.2 ⟨.inl rfl, List.forall_mem_cons.2 ⟨.inr (.inl rfl), ih⟩⟩

theorem scaffold_closeCalls (n : Nat) : ∀ p ∈ closeCalls n, p.Scaffold := by
  intro p member
  rw [List.eq_of_mem_replicate member]
  exact .inr (.inr rfl)

theorem head_openCalls (n : Nat) (rest : List Piece) :
    (openCalls n ++ sqrt :: rest).head? = some sqrt := by
  cases n <;> rfl

/-- Root signs begin with a square root. -/
theorem head_wrapFrom_roots (more : Nat) (n : Nesting) (ps : List Piece) :
    (wrapFrom (.roots more) n ps).head? = some sqrt := by
  induction ps generalizing more with
  | nil => exact head_openCalls more []
  | cons p ps ih =>
      unfold wrapFrom
      split
      · exact ih _
      split
      · rfl
      split
      · rfl
      · rw [List.append_assoc]
        exact head_openCalls more _

/-- What wrapping begins with was put in, or is the first of the pieces. -/
theorem head_wrapFrom (phase : Phase) (n : Nesting) (ps : List Piece) :
    ∀ q ∈ (wrapFrom phase n ps).head?, q.Scaffold ∨ ps.head? = some q := by
  have roots (more : Nat) (ps : List Piece) :
      ∀ q ∈ (wrapFrom (.roots more) n ps).head?, q.Scaffold := by
    rw [head_wrapFrom_roots]
    rintro q ⟨⟩
    exact .inl rfl
  have closes (more : Nat) (rest : List Piece) :
      ∀ q ∈ (closeCalls (more + 1) ++ rest).head?, q.Scaffold := by
    rintro q ⟨⟩
    exact .inr (.inr rfl)
  cases phase with
  | roots more => exact fun q first => .inl (roots more ps q first)
  | plain =>
      cases ps with
      | nil => simp [wrapFrom]
      | cons p ps =>
          unfold wrapFrom settle
          split
          · exact fun q first => .inl (roots 0 ps q first)
          split
          · rintro q ⟨⟩
            exact .inl (.inr (.inr rfl))
          · exact fun q first => .inr first
  | operand more =>
      cases ps with
      | nil => exact fun q first => .inl (closes more [] q (by simpa [wrapFrom] using first))
      | cons p ps =>
          unfold wrapFrom
          split
          · exact fun q first => .inr first
          · exact fun q first => .inl (closes more _ q first)

theorem isChain_settle {p : Piece} {rest : List Piece} (parted : (p :: rest).IsChain Parted)
    (n : Nesting) : (settle n p ++ rest).IsChain Parted := by
  unfold settle
  split
  · refine isChain_append_of_scaffold ?_ parted.tail
    exact List.forall_mem_cons.2 ⟨.inr (.inr rfl), scaffold_closeCalls n.due⟩
  · exact parted

theorem isChain_wrapFrom {ps : List Piece} (parted : ps.IsChain Parted) (phase : Phase)
    (n : Nesting) : (wrapFrom phase n ps).IsChain Parted := by
  have closes (more : Nat) {rest : List Piece} (goesOn : rest.IsChain Parted) :
      (closeCalls (more + 1) ++ rest).IsChain Parted :=
    isChain_append_of_scaffold (scaffold_closeCalls (more + 1)) goesOn
  induction ps generalizing phase n with
  | nil =>
      cases phase with
      | plain => exact .nil
      | roots more => exact isChain_append_of_scaffold (scaffold_openCalls more) (.singleton _)
      | operand more => simpa [wrapFrom] using closes more .nil
  | cons p ps ih =>
      have goesOn := ih parted.tail
      -- a piece that is kept stands before what stood after it or before what was put in
      have kept (phase : Phase) (n : Nesting) : (p :: wrapFrom phase n ps).IsChain Parted := by
        refine (goesOn phase n).cons fun q first => ?_
        rcases head_wrapFrom phase n ps q first with scaffold | next
        · exact scaffold.parted_right p
        · exact parted.rel_head? next
      cases phase with
      | plain =>
          unfold wrapFrom
          split
          · exact goesOn _ n
          · exact isChain_settle (kept _ _) n
      | roots more =>
          unfold wrapFrom
          split
          · exact goesOn _ n
          split
          · exact isChain_append_of_scaffold (scaffold_openCalls _) (kept _ n)
          split
          · rw [List.append_assoc]
            refine isChain_append_of_scaffold (scaffold_openCalls _) ?_
            refine (closes more (goesOn _ n)).cons fun q first => ?_
            obtain rfl : closing = q := Option.some.inj first
            exact parted_of_right rfl p
          · rw [List.append_assoc]
            refine isChain_append_of_scaffold (scaffold_openCalls _) ?_
            exact (isChain_settle (kept _ _) _).cons fun q _ => fun _ _ => .inl rfl
      | operand more =>
          unfold wrapFrom
          split
          · exact kept _ n
          · refine closes more ?_
            split
            · exact goesOn _ n
            · exact isChain_settle (kept _ _) n

/-- **Words side by side are there for root signs.** -/
theorem isChain_wrapRoots (t : Text) : (wrapRoots (cut t)).IsChain Parted :=
  isChain_wrapFrom (isChain_cut t) .plain {}

/-! ## The words of what is written -/

theorem ofWord?_of_long {w : Text} (long : 4 ≤ w.length) : Constant.ofWord? w = none := by
  have other {v : Text} (short : v.length < 4) : w ≠ v := by
    rintro rfl
    omega
  rw [Constant.ofWord?, if_neg (by simp [other]), if_neg (other (by decide))]

/-- What is written for a piece is the run of letters that it is, or has no letters. -/
theorem WellFormed.text_cases {p : Piece} (wellFormed : p.WellFormed) :
    (∃ w, p = word w ∧ p.text = w ∧ p.isRun = true ∧ w ≠ [] ∧ Constant.ofWord? w = none) ∨
      ∀ c ∈ p.text, c.isAlpha = false := by
  have ofConstant {w : Text} {k : Constant} (named : Constant.ofWord? w = some k) :
      ∀ c ∈ (word w).text, c.isAlpha = false := by
    rw [text_word_of_some named]
    exact fun c member => isAlpha_eq_false_of_isNumeral (isNumeral_of_mem_numeral k c member)
  cases wellFormed with
  | digit numeral => exact .inr (by simpa [text] using isAlpha_eq_false_of_isNumeral numeral)
  | @letters w some small =>
      cases named : Constant.ofWord? w with
      | some k => exact .inr (ofConstant named)
      | none =>
          refine .inl ⟨w, rfl, text_word_of_none named, ?_, some, named⟩
          exact List.all_eq_true.2 fun c member => (small c member).1
  | @letter c single foreign =>
      cases named : Constant.ofWord? [c] with
      | some k => exact .inr (ofConstant named)
      | none => exact .inr (by simpa [text_word_of_none named] using foreign)
  | @other c noLetter =>
      exact .inr (by simpa [text] using isAlpha_eq_false_of_not_isLetter noLetter)

/-- What is written after a piece stands right behind it or after a star. -/
theorem exists_write_cons (p : Piece) (rest : List Piece) :
    ∃ gap : Text, (gap = [] ∨ gap = ['*']) ∧ write (p :: rest) = p.text ++ (gap ++ write rest) := by
  cases rest with
  | nil => exact ⟨[], .inl rfl, by simp⟩
  | cons q rest =>
      refine ⟨between p q, ?_, by rw [write_cons, List.append_assoc]⟩
      unfold between
      split
      · exact .inr rfl
      · exact .inl rfl

/-- What is written for a piece stands in the whole. -/
theorem exists_write_mem {p : Piece} {ps : List Piece} (member : p ∈ ps) :
    ∃ u v, write ps = u ++ (p.text ++ v) := by
  obtain ⟨before, rest, rfl⟩ := List.append_of_mem member
  obtain ⟨u, written⟩ := exists_write_append before p rest
  obtain ⟨gap, -, after⟩ := exists_write_cons p rest
  exact ⟨u, gap ++ write rest, by rw [written, after]⟩

/-- The first word of a text is a run of letters. -/
theorem isRun_of_split {t w : Text} {rest : List Lexeme} (found : split t = .word w :: rest) :
    (word w).isRun = true := by
  have drawn := drawn_of_mem_split (found ▸ List.mem_cons_self .. : Lexeme.word w ∈ split t)
  exact List.all_eq_true.2 fun c member => (drawn.2 c member).2

/-- Words that grow together are long. -/
theorem long_of_parted {w r : Text} (parted : Parted (word w) (word r))
    (first : (word w).isRun = true) (second : (word r).isRun = true) : 4 ≤ (w ++ r).length := by
  have sqrt_length : "sqrt".toList.length = 4 := rfl
  rw [List.length_append]
  rcases parted first second with same | same
  · obtain rfl := Piece.word.inj same
    omega
  · obtain rfl := Piece.word.inj same
    omega

/-- A star between two texts is no word and keeps words apart. -/
theorem words_after_gap {gap : Text} (shape : gap = [] ∨ gap = ['*']) (t : Text) :
    (∀ w, .word w ∈ split (gap ++ t) → .word w ∈ split t) ∧
      ∀ w rest, split (gap ++ t) = .word w :: rest → split t = .word w :: rest := by
  rcases shape with rfl | rfl
  · exact ⟨fun _ member => member, fun _ _ found => found⟩
  · obtain ⟨noWord, same⟩ := words_append_of_no_letters (show ['*'] ≠ [] by simp) (by simp) t
    exact ⟨same, fun w rest found => absurd found (noWord w rest)⟩

theorem ofWord?_of_mem_cons {u : Text} {ls : List Lexeme} (first : Constant.ofWord? u = none)
    (others : ∀ w, .word w ∈ ls → Constant.ofWord? w = none) :
    ∀ w, .word w ∈ .word u :: ls → Constant.ofWord? w = none := by
  intro w member
  rcases List.mem_cons.1 member with same | member
  · rwa [Lexeme.word.inj same]
  · exact others w member

/-- **No word of what is written names a constant**; the first word is long or the first of the
pieces. -/
theorem ofWord?_of_mem_split_write {ps : List Piece} (wellFormed : ∀ p ∈ ps, p.WellFormed)
    (parted : ps.IsChain Parted) :
    (∀ w, .word w ∈ split (write ps) → Constant.ofWord? w = none) ∧
      ∀ w rest, split (write ps) = .word w :: rest →
        4 ≤ w.length ∨ ps.head? = some (word w) := by
  induction ps with
  | nil => simp
  | cons p ps ih =>
      obtain ⟨first, others⟩ := List.forall_mem_cons.1 wellFormed
      obtain ⟨words, begins⟩ := ih others parted.tail
      obtain ⟨gap, shape, whole⟩ := exists_write_cons p ps
      obtain ⟨same, next⟩ := words_after_gap shape (write ps)
      have within : ∀ w, .word w ∈ split (gap ++ write ps) → Constant.ofWord? w = none :=
        fun w member => words w (same w member)
      rw [whole]
      rcases first.text_cases with ⟨w, rfl, written, isRun, some, named⟩ | noLetters
      · rw [written]
        rcases split_append_of_letters some (List.all_eq_true.1 isRun) (gap ++ write ps) with
          ⟨r, rest, begun, merged⟩ | ⟨-, apart⟩
        · -- the words grow together, and one of them has the name of the square root in it
          have found := next r rest begun
          have long : 4 ≤ (w ++ r).length := by
            rcases begins r rest found with long | second
            · rw [List.length_append]
              omega
            · exact long_of_parted (parted.rel_head? second) isRun (isRun_of_split found)
          rw [merged]
          rw [begun] at within
          refine ⟨ofWord?_of_mem_cons (ofWord?_of_long long)
            fun v member => within v (List.mem_cons_of_mem _ member), ?_⟩
          rintro v rest' ⟨⟩
          exact .inl long
        · rw [apart]
          refine ⟨ofWord?_of_mem_cons named within, ?_⟩
          rintro v rest' ⟨⟩
          exact .inr rfl
      · obtain ⟨noWord, kept⟩ := words_append_of_no_letters first.text_ne_nil noLetters
          (gap ++ write ps)
        exact ⟨fun w member => within w (kept w member),
          fun w rest found => absurd found (noWord w rest)⟩

end Piece

end SciCalc
