/-
# SciCalc.Proofs.Spelling -- raw texts that spell phrases

A raw text spells a phrase (`Spells`) when its normal form is read as the tokens
of the phrase.  What it is cut into then is wrapped alike everywhere
(`Spells.wraps`), so the text can be put into a larger one: between parentheses,
under a minus sign, a function or root signs, before a factorial sign, and
between or after the signs of the binary operators.  Each way of putting texts
together spells the phrase that the grammar makes of their phrases.

The sign of a product need not be written.  What is written for a text that spells
a phrase ends an operand (`Spells.ends_of_last`), so a text right after it that
begins with a word or a parenthesis is a factor (`Spells.normalize_append`).
-/
import Mathlib.Logic.Function.Iterate
import SciCalc.Expr.Written
import SciCalc.Proofs.Piece.FixedPoint
import SciCalc.Proofs.Token.Names
import SciCalc.Proofs.Token.Sides

namespace SciCalc

set_option autoImplicit false

/-! ## The ends of a phrase -/

namespace Token

open Lexeme

/-- A star is read as an operator that cannot be a sign. -/
theorem Lexes.head_of_star {closed : Bool} {ls : List Lexeme} {ts : List Token}
    (lexes : Lexes closed ls ts) (first : ls.head? = some (.char '*')) :
    ∃ o : Operator, o ≠ .sub ∧ ts.head? = some (operator o) := by
  cases lexes with
  | nil => cases first
  | word w rest => cases first
  | numeral value rest => cases first
  | signed value rest => cases first
  | power rest => exact ⟨.pow, by decide, rfl⟩
  | blank white rest =>
      obtain rfl := Lexeme.char.inj (Option.some.inj first)
      cases white
  | char apart single rest =>
      obtain rfl := Lexeme.char.inj (Option.some.inj first)
      obtain rfl := Option.some.inj (Except.ok.inj single)
      exact ⟨.mul, by decide, rfl⟩

end Token

namespace Phrase

variable {c : Category}

/-- At the end of a phrase an operand has just ended. -/
theorem closedAfter_tokens (d : Phrase c) (closed : Bool) :
    Token.closedAfter closed d.tokens = true := by
  induction d generalizing closed with
  | number v => rfl
  | group x ih => simp [tokens, Token.closesValue]
  | call f x ih => simp [tokens, Token.closesValue]
  | factorial x ih => simp [tokens, Token.closesValue]
  | minus x ih => exact ih _
  | negate x ih => exact ih _
  | binary o x y ihx ihy => simp [tokens, ihy]
  | ofPrimary x ih | ofSuffixed x ih | ofUnary x ih | ofPower x ih | ofProduct x ih =>
      exact ih closed

/-- No phrase begins with an operator but the minus sign. -/
theorem head_tokens_ne (d : Phrase c) {o : Operator} (noSub : o ≠ .sub) :
    d.tokens.head? ≠ some (.operator o) := by
  induction d with
  | number v => simp [tokens]
  | group x ih => simp [tokens]
  | call f x ih => simp [tokens]
  | factorial x ih =>
      obtain ⟨t, ts, shape⟩ := List.exists_cons_of_ne_nil x.tokens_ne_nil
      simpa [tokens, shape] using ih
  | minus x ih => simpa [tokens] using noSub.symm
  | negate x ih => simp [tokens]
  | binary o x y ihx ihy =>
      obtain ⟨t, ts, shape⟩ := List.exists_cons_of_ne_nil x.tokens_ne_nil
      simpa [tokens, shape] using ihx
  | ofPrimary x ih | ofSuffixed x ih | ofUnary x ih | ofPower x ih | ofProduct x ih => exact ih

end Phrase

/-- The ways to write the sign of an operator in an entry. -/
def Operator.spellings : Operator → List Text
  | add => ["+"]
  | sub => ["-", "−"]
  | mul => ["*", "×"]
  | div => ["/", "÷"]
  | pow => ["^", "**"]

theorem Operator.sign_mem_spellings (o : Operator) : [o.sign] ∈ o.spellings := by
  cases o <;> decide

/-- An operator is written with one character that stands for its sign, or with two stars. -/
theorem Operator.of_mem_spellings {o : Operator} {sign : Text} (spelled : sign ∈ o.spellings) :
    (∃ c, sign = [c] ∧ isBlank c = false ∧ Piece.plainSign c = o.sign) ∨
      o = .pow ∧ sign = ['*', '*'] := by
  cases o with
  | add =>
      obtain rfl := List.mem_singleton.1 spelled
      exact .inl ⟨'+', rfl, rfl, rfl⟩
  | pow =>
      simp only [spellings, List.mem_cons, List.not_mem_nil, or_false] at spelled
      rcases spelled with rfl | rfl
      · exact .inl ⟨'^', rfl, rfl, rfl⟩
      · exact .inr ⟨rfl, rfl⟩
  | _ =>
      simp only [spellings, List.mem_cons, List.not_mem_nil, or_false] at spelled
      rcases spelled with rfl | rfl <;> exact .inl ⟨_, rfl, rfl, rfl⟩

/-! ## Spelling -/

open Piece Lexeme Token
open SciCalc.Expr (grouped)

variable {c : Category}

/-- The normal form of a text is read as the tokens of a phrase. -/
def Spells (t : Text) (d : Phrase c) : Prop := Token.read (normalize t) = .ok d.tokens

namespace Spells

theorem lexes {t : Text} {d : Phrase c} (spells : Spells t d) :
    Lexes false (split (normalize t)) d.tokens :=
  lexes_of_read spells

theorem of_tokens {t : Text} {d : Phrase c} {c' : Category} {d' : Phrase c'} (spells : Spells t d)
    (same : d'.tokens = d.tokens) : Spells t d' := by
  rw [Spells, same]
  exact spells

theorem legible_wrapRoots (t : Text) : ∀ p ∈ wrapRoots (cut t), p.Legible :=
  forall_wrapFrom legible_sqrt legible_opening legible_closing
    (fun p member _ => legible_cut t p member) .plain {}

/-- What is written of a text that spells a phrase applies every square root to a group. -/
theorem applied {t : Text} {d : Phrase .sum} (spells : Spells t d) :
    Applied (wrapRoots (cut t)) := by
  intro before after found
  have legible := legible_wrapRoots t
  rw [found] at legible
  obtain ⟨u, whole⟩ := exists_write_append before sqrt after
  have done : Token.read (write (before ++ sqrt :: after)) = .ok d.tokens := found ▸ spells
  rw [whole] at done
  cases after with
  | nil => cases d.head_of_sqrt (v := []) done (by simp)
  | cons q after =>
      have shown : q.Legible := legible q (by simp)
      have head := head_write shown.written after
      by_cases factors : sqrt.multiplies q = true
      · -- the star between factors would stand right after the name
        have star : write (sqrt :: q :: after) = Func.sqrt.name ++ ('*' :: write (q :: after)) := by
          rw [write_cons, between, if_pos factors]
          rfl
        rw [star] at done
        cases d.head_of_sqrt done (by simp; rfl)
      · have plain : write (sqrt :: q :: after) = Func.sqrt.name ++ write (q :: after) := by
          rw [write_cons, between, if_neg factors]
          rfl
        rw [plain] at done
        have first := d.head_of_sqrt done fun c member =>
          shown.visible c (List.mem_of_mem_head? (head ▸ member))
        exact congrArg some (shown.eq_opening (head.symm.trans first))

/-- The pieces of a text that spells a phrase are in good order. -/
theorem inOrder {t : Text} {d : Phrase c} (spells : Spells t d) : InOrder .plain {} (cut t) := by
  obtain ⟨whole, same, -⟩ := d.exists_of_level_le .sum c.level_pos
  have spells := spells.of_tokens same
  refine inOrder_of_wrapRoots spells.applied ?_
  have parens : parens (wrapRoots (cut t)) = Token.parens whole.tokens :=
    (parens_write (legible_wrapRoots t)).symm.trans (parens_of_read spells).symm
  have balanced := whole.depthAfter_parens 0 []
  rw [List.append_nil] at balanced
  rw [parens, balanced, Paren.depthAfter_nil]

/-- **A text that spells a phrase is wrapped alike everywhere.** -/
theorem wraps {t : Text} {d : Phrase c} (spells : Spells t d) :
    Wraps (cut t) (wrapRoots (cut t)) :=
  spells.inOrder.wraps

theorem normalize_eq {t : Text} {qs : List Piece} (wraps : Wraps (cut t) qs) :
    normalize t = write qs := by
  rw [normalize, wraps.wrapRoots]

/-- A text spells a phrase if it is wrapped to pieces that are. -/
theorem of_wraps {t : Text} {qs : List Piece} {d : Phrase c} (wraps : Wraps (cut t) qs)
    (lexes : Lexes false (split (write qs)) d.tokens) : Spells t d := by
  rw [Spells, normalize_eq wraps]
  exact lexes.read

/-! ## Groups, calls and signs -/

theorem cut_grouped (t : Text) : cut (grouped t) = opening :: cut t ++ [closing] := by
  rw [grouped, List.cons_append, cut_cons rfl rfl, cut_append_cons rfl rfl]
  rfl

theorem write_grouped (qs : List Piece) :
    write (opening :: qs ++ [closing]) = grouped (write qs) := by
  rw [List.cons_append, opening, write_other_cons (by decide) (by decide), closing,
    write_append_other (by decide)]
  rfl

theorem lexes_grouped (closed : Bool) {t v : Text} {ts vs : List Token}
    (inner : Lexes false (split t) ts) (after : Lexes true (split v) vs) :
    Lexes closed (split (grouped t ++ v)) (openGroup :: ts ++ closeGroup :: vs) := by
  have cuts : split (grouped t ++ v) = .char '(' :: (split t ++ .char ')' :: split v) := by
    rw [grouped, List.cons_append, List.cons_append, List.append_assoc, List.singleton_append,
      split_cons_of_standsAlone rfl, split_append_cons rfl]
  have closes : Lexes (closedAfter false ts) (.char ')' :: split v) (closeGroup :: vs) :=
    .char (.inl (apart_char (by decide) (by decide) _)) rfl after
  rw [cuts]
  refine .char (.inl (apart_char (by decide) (by decide) _)) rfl ?_
  exact (lexes_append_iff (apart_of_head (by simp) (by simp))).2 ⟨ts, _, rfl, inner, closes⟩

theorem wraps_grouped {t : Text} {d : Phrase c} (spells : Spells t d) :
    Wraps (cut (grouped t)) (opening :: wrapRoots (cut t) ++ [closing]) := by
  rw [cut_grouped]
  exact spells.wraps.group

theorem normalize_grouped {t : Text} {d : Phrase c} (spells : Spells t d) :
    normalize (grouped t) = grouped (normalize t) := by
  rw [normalize_eq spells.wraps_grouped, write_grouped]
  rfl

/-- **Parentheses** around a text make a group. -/
theorem group {t : Text} {d : Phrase .sum} (spells : Spells t d) :
    Spells (grouped t) (.group d) := by
  apply of_wraps spells.wraps_grouped
  rw [write_grouped, ← List.append_nil (grouped _)]
  exact lexes_grouped _ (v := []) spells.lexes (.nil true)

/-- A group is a phrase of every category. -/
theorem exists_grouped {t : Text} {d : Phrase .sum} (spells : Spells t d) (c' : Category) :
    ∃ x : Phrase c', Spells (grouped t) x ∧ x.tree = d.tree ∧ x.nesting = d.nesting + 1 ∧
      x.tokens = (Phrase.group d).tokens := by
  obtain ⟨x, tokens, tree, nesting⟩ :=
    (Phrase.group d).exists_of_level_le c' (by cases c' <;> decide)
  exact ⟨x, spells.group.of_tokens tokens, tree, nesting, tokens⟩

/-- No group begins with a numeral. -/
theorem head_grouped_ne {t : Text} {d : Phrase c} (spells : Spells t d) (digits : Text) :
    (split (normalize (grouped t))).head? ≠ some (.numeral digits) := by
  rw [spells.normalize_grouped, grouped, List.cons_append, split_cons_of_standsAlone rfl]
  simp

/-- **A minus sign** before a text negates it, unless it is the sign of a numeral. -/
theorem minus {t : Text} {x : Phrase .unary} (spells : Spells t x)
    (noNumeral : ∀ digits, (split (normalize t)).head? ≠ some (.numeral digits)) :
    Spells ('-' :: t) (.minus x) := by
  have wraps : Wraps (cut ('-' :: t)) (other '-' :: wrapRoots (cut t)) := by
    rw [cut_cons rfl rfl]
    exact wraps_cons (by decide) (by decide) (by decide) spells.wraps
  apply of_wraps wraps
  rw [write_other_cons (by decide) (by decide), split_cons_of_standsAlone rfl]
  refine .char (.inl (apart_of_not_fused ?_ ?_)) rfl spells.lexes
  · intro digits more first
    exact absurd (congrArg List.head? first) (noNumeral digits)
  · intro more _ isStar
    cases isStar

theorem cut_name_append (f : Func) (t : Text) :
    cut (f.name ++ grouped t) = Piece.word f.name :: cut (grouped t) := by
  have name : cut f.name = [Piece.word f.name] := by cases f <;> rfl
  rw [grouped, List.cons_append, cut_append_cons rfl rfl, name, cut_cons rfl rfl]
  rfl

/-- **The name of a function** before a text in parentheses calls the function. -/
theorem call {t : Text} {d : Phrase .sum} (spells : Spells t d) (f : Func) :
    Spells (f.name ++ grouped t) (.call f d) := by
  have wraps : Wraps (cut (f.name ++ grouped t))
      (Piece.word f.name :: (opening :: wrapRoots (cut t) ++ [closing])) := by
    rw [cut_name_append]
    exact wraps_cons (p := .word f.name) nofun nofun nofun spells.wraps_grouped
  have written : write (Piece.word f.name :: (opening :: wrapRoots (cut t) ++ [closing])) =
      f.name ++ grouped (normalize t) := by
    have name : (Piece.word f.name).text = f.name := by cases f <;> rfl
    have noStar : between (Piece.word f.name) opening = [] := by cases f <;> rfl
    rw [List.cons_append, write_cons, name, noStar, ← List.cons_append, write_grouped,
      List.append_nil]
    rfl
  have cuts : split (f.name ++ grouped (normalize t)) =
      .word f.name :: split (grouped (normalize t)) := by
    obtain ⟨some, letters⟩ := f.name_letters
    rw [grouped, List.cons_append, split_append_cons rfl, split_word some letters,
      split_cons_of_standsAlone rfl]
    rfl
  apply of_wraps wraps
  rw [written, cuts]
  have inner := lexes_grouped false (v := []) spells.lexes (.nil true)
  rw [List.append_nil] at inner
  have named : Lexes false (.word f.name :: split (grouped (normalize t))) _ := .word f.name inner
  rw [f.name_map_toLower] at named
  exact named

/-- **The sign of the factorial** after a text. -/
theorem factorial {t : Text} {x : Phrase .suffixed} (spells : Spells t x) :
    Spells (t ++ ['!']) (.factorial x) := by
  have cuts : cut (t ++ ['!']) = cut t ++ [other '!'] := cut_append_cons rfl rfl t []
  have wraps : Wraps (cut (t ++ ['!'])) (wrapRoots (cut t) ++ [other '!']) := by
    rw [cuts]
    have sign : Wraps [other '!'] [other '!'] :=
      wraps_cons (by decide) (by decide) (by decide) wraps_nil
    exact spells.wraps.append sign (by simp [isDigit])
  apply of_wraps wraps
  rw [write_append_other (by decide), write_singleton, Piece.text, split_append_cons rfl]
  refine (lexes_append_iff (apart_of_head (by simp) (by simp))).2
    ⟨x.tokens, [.factorial], rfl, spells.lexes, ?_⟩
  exact .char (.inl (apart_char (by decide) (by decide) _)) rfl (.nil true)

/-! ## Operators -/

theorem last_ne_star {t : Text} {d : Phrase c} (spells : Spells t d) :
    (split (normalize t)).getLast? ≠ some (.char '*') := by
  intro last
  have due : closedAfter false d.tokens = false := by
    refine spells.lexes.closedAfter_eq last ?_
    rintro c ⟨⟩
    exact ⟨rfl, by decide⟩
  rw [d.closedAfter_tokens] at due
  cases due

theorem head_ne_star {t : Text} {d : Phrase c} (spells : Spells t d) :
    (split (normalize t)).head? ≠ some (.char '*') := by
  intro first
  obtain ⟨o, noSub, head⟩ := spells.lexes.head_of_star first
  exact d.head_tokens_ne noSub head

/-- No character is read together with the end of a phrase. -/
theorem apart_char {t : Text} {d : Phrase c} (spells : Spells t d) (a : Char) (rest : List Lexeme) :
    Apart (split (normalize t)) (.char a :: rest) := by
  intro b last b' first
  obtain rfl := Option.some.inj first
  unfold fuses
  split
  · rename_i isNumeral
    cases isNumeral
  · exact absurd last spells.last_ne_star
  · rfl

/-- White space is nothing to a spelling. -/
theorem congr {t u : Text} {d : Phrase c} (spells : Spells t d)
    (same : t.withoutBlanks = u.withoutBlanks) : Spells u d := by
  rw [Spells, normalize, ← cut_congr same]
  exact spells

section Operators

variable {o : Operator} {s t : Text} {c' : Category} {x : Phrase c} {y : Phrase c'}

/-- The sign of an operator stays between what it stands between. -/
theorem normalize_sign {a : Char} (visible : isBlank a = false) (plain : plainSign a = o.sign)
    (first : Spells s x) (second : Spells t y) :
    normalize (s ++ a :: t) = normalize s ++ o.sign :: normalize t := by
  have sign : Piece.ofChar o.sign = other o.sign := by cases o <;> rfl
  have cuts : cut (s ++ a :: t) = cut s ++ other o.sign :: cut t := by
    rw [cut_append_cons visible (by rw [plain]; cases o <;> rfl), plain, sign]
  have after : Wraps (other o.sign :: cut t) (other o.sign :: wrapRoots (cut t)) := by
    apply wraps_cons _ _ _ second.wraps <;> cases o <;> decide
  have wraps := first.wraps.append after (by simp [isDigit])
  rw [← cuts] at wraps
  rw [normalize_eq wraps, write_append_other (by cases o <;> decide),
    write_other_cons (by cases o <;> decide) (by cases o <;> decide)]
  rfl

/-- The sign of an operator between texts is read between their tokens. -/
theorem read_sign {a : Char} (visible : isBlank a = false) (plain : plainSign a = o.sign)
    (first : Spells s x) (second : Spells t y) :
    Token.read (normalize (s ++ a :: t)) = .ok (x.tokens ++ operator o :: y.tokens) := by
  have alone : standsAlone o.sign = true := by cases o <;> rfl
  have single : Token.ofChar o.sign = .ok (some (operator o)) := by cases o <;> rfl
  have after : Apart [.char o.sign] (split (normalize t)) ∨ true = true ∧ o.sign = '-' := by
    by_cases isSub : o = .sub
    · exact .inr ⟨rfl, isSub ▸ rfl⟩
    · refine .inl (apart_of_not_fused ?_ ?_)
      · intro digits more _ isMinus
        exact isSub (Operator.sign_injective o .sub isMinus)
      · intro more begins _
        exact second.head_ne_star (by rw [begins]; rfl)
  have read : Lexes true (.char o.sign :: split (normalize t)) (operator o :: y.tokens) :=
    .char after single second.lexes
  rw [normalize_sign visible plain first second, Token.read, split_append_cons alone]
  refine ((lexes_append_iff (first.apart_char _ _)).2 ⟨x.tokens, _, rfl, first.lexes, ?_⟩).read
  rw [x.closedAfter_tokens]
  exact read

/-- **The sign of an operator** between texts applies the operator. -/
theorem binary {a : Char} {x : Phrase o.left} {y : Phrase o.right} (visible : isBlank a = false)
    (plain : plainSign a = o.sign) (first : Spells s x) (second : Spells t y) :
    Spells (s ++ a :: t) (.binary o x y) :=
  read_sign visible plain first second

/-- **The sign of an operator between any two texts** makes a text that spells a phrase. -/
theorem exists_join {a : Char} {x : Phrase .sum} (visible : isBlank a = false)
    (plain : plainSign a = o.sign) (first : Spells s x) (second : Spells t y) :
    ∃ z : Phrase .sum, Spells (s ++ a :: t) z ∧ z.tokens = x.tokens ++ operator o :: y.tokens := by
  obtain ⟨z, tokens⟩ := x.exists_join o y
  refine ⟨z, ?_, tokens⟩
  rw [Spells, tokens]
  exact read_sign visible plain first second

end Operators

/-- **Two stars** between texts are the sign of the power. -/
theorem stars {s t : Text} {x : Phrase .power} {y : Phrase .unary} (first : Spells s x)
    (second : Spells t y) : Spells (s ++ '*' :: '*' :: t) (.binary .pow x y) := by
  have cuts : cut (s ++ '*' :: '*' :: t) = cut s ++ other '*' :: other '*' :: cut t := by
    rw [cut_append_cons rfl rfl, cut_cons rfl rfl]
    rfl
  have after : Wraps (other '*' :: other '*' :: cut t)
      (other '*' :: other '*' :: wrapRoots (cut t)) := by
    apply wraps_cons (by decide) (by decide) (by decide)
    exact wraps_cons (by decide) (by decide) (by decide) second.wraps
  have wraps := first.wraps.append after (by simp [isDigit])
  rw [← cuts] at wraps
  apply of_wraps wraps
  rw [write_append_other (by decide), write_other_cons (by decide) (by decide),
    write_other_cons (by decide) (by decide), split_append_cons rfl, split_cons_of_standsAlone rfl]
  exact (lexes_append_iff (first.apart_char _ _)).2
    ⟨x.tokens, _, rfl, first.lexes, .power second.lexes⟩

/-- Any spelling of an operator between texts applies the operator. -/
theorem spelled {o : Operator} {sign s t : Text} {x : Phrase o.left} {y : Phrase o.right}
    (spelled : sign ∈ o.spellings) (first : Spells s x) (second : Spells t y) :
    Spells (s ++ sign ++ t) (.binary o x y) := by
  rw [List.append_assoc]
  rcases Operator.of_mem_spellings spelled with ⟨c, rfl, visible, plain⟩ | ⟨rfl, rfl⟩
  · exact first.binary visible plain second
  · exact first.stars second

/-! ## Products and roots -/

/-- What is written for a text that spells a phrase ends with the end of an operand. -/
theorem ends_of_last {t : Text} {d : Phrase c} (spells : Spells t d) :
    ∀ p ∈ (wrapRoots (cut t)).getLast?, p.face.ends = true := by
  intro p last
  have wellFormed := wellFormed_wrapRoots t p (List.mem_of_getLast? last)
  -- the last character shows the side of the piece and that of the last lexeme
  have some := wellFormed.text_ne_nil
  have written := (getLast?_write last some).trans (List.getLast?_eq_getLast_of_ne_nil some)
  obtain ⟨l, lastLexeme, side⟩ := exists_last written
  have kept := drawn_split (normal_normalize t).kept l (List.mem_of_getLast? lastLexeme)
  rw [← wellFormed.side _ (List.getLast_mem some), side, ← spells.lexes.closedAfter_eq lastLexeme,
    d.closedAfter_tokens]
  rintro b rfl
  exact ⟨kept.visible, kept.noRoot⟩

/-- What begins an operand of its own is kept first. -/
theorem head_wrapRoots {q : Piece} (leads : q = opening ∨ q.isWord = true) (rest : List Piece) :
    (wrapRoots (q :: rest)).head? = some q := by
  have other : q ≠ root ∧ q ≠ closing := by
    constructor <;> rintro rfl <;> rcases leads with same | isWord <;> contradiction
  rw [wrapRoots, wrapFrom, if_neg other.1, settle_of_ne other.2]
  rfl

/-- **Texts side by side are factors** where they are cut apart and the second begins with a word
or a parenthesis: the star between them need not be written. -/
theorem normalize_append {s t : Text} {c' : Category} {x : Phrase c} {y : Phrase c'}
    (first : Spells s x) (second : Spells t y) (apart : cut (s ++ t) = cut s ++ cut t)
    {q : Piece} {rest : List Piece} (begins : cut t = q :: rest)
    (leads : q = opening ∨ q.isWord = true) : normalize (s ++ t) = normalize (s ++ '*' :: t) := by
  have noDigit : q.isDigit = false := by
    rcases leads with rfl | isWord
    · rfl
    · cases q <;> first | rfl | cases isWord
  have wraps := first.wraps.append second.wraps (by simp [begins, noDigit])
  rw [← apart] at wraps
  have head : (wrapRoots (cut t)).head? = some q := begins ▸ head_wrapRoots leads rest
  cases last : (wrapRoots (cut s)).getLast? with
  | none =>
      have nothing : wrapRoots (cut s) = [] := List.getLast?_eq_none_iff.1 last
      rw [Spells, normalize, nothing] at first
      exact absurd (Except.ok.inj first).symm x.tokens_ne_nil
  | some p =>
      have wellFormed := wellFormed_wrapRoots s p (List.mem_of_getLast? last)
      have factors := multiplies_of_ends wellFormed (first.ends_of_last p last) leads
      rw [normalize_eq wraps, write_append_of_multiplies last head factors,
        normalize_sign (o := .mul) rfl rfl first second]
      rfl

/-- **Two groups** side by side are a product. -/
theorem product {s t : Text} {d d' : Phrase .sum} {x : Phrase .product} {y : Phrase .power}
    (first : Spells s d) (second : Spells t d') (left : x.tokens = (Phrase.group d).tokens)
    (right : y.tokens = (Phrase.group d').tokens) :
    Spells (grouped s ++ grouped t) (.binary .mul x y) := by
  have factor : Spells (grouped s) x := first.group.of_tokens left
  have factor' : Spells (grouped t) y := second.group.of_tokens right
  have apart : cut (grouped s ++ grouped t) = cut (grouped s) ++ cut (grouped t) := by
    have begins : grouped t = '(' :: (t ++ [')']) := rfl
    rw [begins, cut_append_cons rfl rfl, ← cut_cons rfl rfl]
  rw [Spells, factor.normalize_append factor' apart (cut_grouped t) (.inl rfl)]
  exact binary (o := .mul) rfl rfl factor factor'

/-- The call of the square root on a text. -/
def rooted (t : Text) : Text := Func.sqrt.name ++ grouped t

theorem openCalls_append (k : Nat) (qs : List Piece) :
    openCalls k ++ sqrt :: opening :: qs = openCalls (k + 1) ++ qs := by
  induction k with
  | zero => rfl
  | succ k ih =>
      rw [openCalls, List.cons_append, List.cons_append, ih]
      rfl

theorem wraps_rooted {t : Text} {d : Phrase c} (spells : Spells t d) (k : Nat) :
    Wraps (cut (rooted^[k] t)) (openCalls k ++ wrapRoots (cut t) ++ closeCalls k) := by
  induction k with
  | zero =>
      rw [Function.iterate_zero, id_eq, closeCalls, List.replicate_zero, List.append_nil]
      exact spells.wraps
  | succ k ih =>
      have closes : closeCalls (k + 1) = closeCalls k ++ [closing] := List.replicate_succ'
      rw [Function.iterate_succ_apply', rooted, cut_name_append, cut_grouped, closes]
      have called : Wraps (sqrt :: _) (sqrt :: _) :=
        wraps_cons (by decide) (by decide) (by decide) ih.group
      have shape : openCalls (k + 1) ++ wrapRoots (cut t) ++ (closeCalls k ++ [closing]) =
          sqrt :: (opening :: (openCalls k ++ wrapRoots (cut t) ++ closeCalls k) ++ [closing]) := by
        simp [openCalls]
      rw [shape]
      exact called

/-- **Root signs before a group** are calls of the square root around it. -/
theorem roots {t : Text} {d : Phrase .sum} (spells : Spells t d) (n : Nat) :
    ∃ x : Phrase .sum, Spells (List.replicate n '√' ++ grouped t) x ∧
      x.tree = (Expr.call .sqrt)^[n] d.tree := by
  -- the calls that the signs stand for, one around another
  have calls (k : Nat) : ∃ x : Phrase .sum, Spells (rooted^[k] t) x ∧
      x.tree = (Expr.call .sqrt)^[k] d.tree := by
    induction k with
    | zero => exact ⟨d, spells, rfl⟩
    | succ k ih =>
        obtain ⟨x, inner, tree⟩ := ih
        obtain ⟨y, tokens, outer, -⟩ := (Phrase.call .sqrt x).exists_of_level_le .sum (by decide)
        refine ⟨y, ?_, ?_⟩
        · rw [Function.iterate_succ_apply']
          exact (inner.call .sqrt).of_tokens tokens
        · rw [Function.iterate_succ_apply', outer, Phrase.tree, tree]
  cases n with
  | zero =>
      obtain ⟨y, tokens, tree, -⟩ := (Phrase.group d).exists_of_level_le .sum (by decide)
      exact ⟨y, spells.group.of_tokens tokens, tree⟩
  | succ k =>
      obtain ⟨x, inner, tree⟩ := calls (k + 1)
      have cuts (j : Nat) : cut (List.replicate j '√' ++ grouped t) =
          List.replicate j root ++ cut (grouped t) := by
        induction j with
        | zero => rfl
        | succ j ih =>
            rw [List.replicate_succ, List.cons_append, cut_cons rfl rfl, ih]
            rfl
      have wraps := spells.wraps.roots k
      rw [← cut_grouped, ← cuts] at wraps
      refine ⟨x, ?_, tree⟩
      rw [Spells, normalize_eq wraps, List.cons_append, openCalls_append, ← List.append_assoc]
      have written := normalize_eq (spells.wraps_rooted (k + 1))
      rw [Spells, written] at inner
      exact inner

end Spells

/-! ## Trees -/

/-- A text spells a tree: a phrase of category `c` that has the tree, in no more than `n` groups. -/
def SpellsTree (t : Text) (c : Category) (e : Expr) (n : Nat) : Prop :=
  ∃ x : Phrase c, Spells t x ∧ x.tree = e ∧ x.nesting ≤ n

namespace SpellsTree

variable {s t : Text} {c : Category} {a b e : Expr} {n n' : Nat}

theorem looser (spells : SpellsTree t c e n) (d : Category) (low : d.level ≤ c.level) :
    SpellsTree t d e n := by
  obtain ⟨x, spells, rfl, shallow⟩ := spells
  obtain ⟨y, tokens, tree, nesting⟩ := x.exists_of_level_le d low
  exact ⟨y, spells.of_tokens tokens, tree, by omega⟩

theorem mono (spells : SpellsTree t c e n) (more : n ≤ n') : SpellsTree t c e n' := by
  obtain ⟨x, spells, tree, shallow⟩ := spells
  exact ⟨x, spells, tree, Nat.le_trans shallow more⟩

theorem group (spells : SpellsTree t .sum e n) (d : Category) :
    SpellsTree (grouped t) d e (n + 1) := by
  obtain ⟨x, spells, rfl, shallow⟩ := spells
  obtain ⟨y, grouped, tree, nesting, -⟩ := spells.exists_grouped d
  exact ⟨y, grouped, tree, by omega⟩

theorem negate (spells : SpellsTree t .sum e n) :
    SpellsTree ('-' :: grouped t) .unary (.negate e) (n + 1) := by
  obtain ⟨x, spells, rfl, shallow⟩ := spells
  obtain ⟨y, grouped, tree, nesting, -⟩ := spells.exists_grouped .unary
  refine ⟨.minus y, grouped.minus spells.head_grouped_ne, ?_, ?_⟩
  · rw [Phrase.tree, tree]
  · rw [Phrase.nesting, nesting]
    omega

theorem call (spells : SpellsTree t .sum e n) (f : Func) :
    SpellsTree (f.name ++ grouped t) .suffixed (.call f e) (n + 1) := by
  obtain ⟨x, spells, rfl, shallow⟩ := spells
  have called : Spells (f.name ++ grouped t) (Phrase.ofPrimary (.call f x)) :=
    (spells.call f).of_tokens rfl
  refine ⟨_, called, rfl, ?_⟩
  rw [Phrase.nesting, Phrase.nesting]
  omega

theorem factorial (spells : SpellsTree t .suffixed e n) :
    SpellsTree (t ++ ['!']) .suffixed (.factorial e) n := by
  obtain ⟨x, spells, rfl, shallow⟩ := spells
  exact ⟨.factorial x, spells.factorial, rfl, shallow⟩

/-- White space may stand around the sign of an operator. -/
theorem binary {o : Operator} {sign gap gap' : Text} (spelled : sign ∈ o.spellings)
    (blank : ∀ x ∈ gap ++ gap', isBlank x = true) (first : SpellsTree s o.left a n)
    (second : SpellsTree t o.right b n') :
    SpellsTree (s ++ gap ++ sign ++ gap' ++ t) o.left (.binary o a b) (max n n') := by
  obtain ⟨x, left, rfl, shallow⟩ := first
  obtain ⟨y, right, rfl, shallow'⟩ := second
  have joined := left.spelled spelled right
  have none {u : Text} (white : ∀ x ∈ u, isBlank x = true) : u.withoutBlanks = [] := by
    simpa [Text.withoutBlanks] using white
  obtain ⟨before, after⟩ := List.forall_mem_append.1 blank
  refine ⟨.binary o x y, joined.congr (by simp [none before, none after]), rfl, ?_⟩
  rw [Phrase.nesting]
  omega

theorem product (first : SpellsTree s .sum a n) (second : SpellsTree t .sum b n') :
    SpellsTree (grouped s ++ grouped t) .product (.binary .mul a b) (max n n' + 1) := by
  obtain ⟨d, spells, rfl, shallow⟩ := first
  obtain ⟨d', spells', rfl, shallow'⟩ := second
  obtain ⟨x, -, tree, nesting, tokens⟩ := spells.exists_grouped .product
  obtain ⟨y, -, tree', nesting', tokens'⟩ := spells'.exists_grouped .power
  refine ⟨.binary .mul x y, spells.product spells' tokens tokens', ?_, ?_⟩
  · show Expr.binary .mul x.tree y.tree = _
    rw [tree, tree']
  · show max x.nesting y.nesting ≤ _
    rw [nesting, nesting']
    omega

theorem roots (spells : SpellsTree t .sum e n) (k : Nat) :
    ∃ m, SpellsTree (List.replicate k '√' ++ grouped t) .sum ((Expr.call .sqrt)^[k] e) m := by
  obtain ⟨d, spells, rfl, -⟩ := spells
  obtain ⟨x, rooted, tree⟩ := spells.roots k
  exact ⟨x.nesting, x, rooted, tree, Nat.le_refl _⟩

end SpellsTree

end SciCalc
