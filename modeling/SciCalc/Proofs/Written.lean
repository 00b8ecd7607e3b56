/-
# SciCalc.Proofs.Written -- a written tree is read back

A finite double is written as a numeral, after a minus sign if its sign bit is
set, and such a text spells that double and no other (`Spells.number`).  From
there on a tree in full parentheses spells itself, node by node
(`Expr.spellsTree_text`): no sign of a numeral is taken for a negation, no factor
is put between, and the operand of a factorial is the one it was written for.  So
a written tree is read back (`Expr.text_reads_back`), and no two trees are
written alike (`Expr.text_injective`).
-/
import SciCalc.Proofs.Composition
import SciCalc.Proofs.Decimal.Numerals

namespace SciCalc

set_option autoImplicit false

open SciCalc.Expr (grouped)

/-! ## Numbers -/

/-- The digits that a finite double is written with, apart from the sign. -/
def Number.digits (v : Float) : Text := (Decimal.shortest v).positional

theorem Number.text_of_isFinite {v : Float} (finite : v.isFinite = true) :
    Number.text v = if Binary64.isNegative v then '-' :: Number.digits v else Number.digits v :=
  Number.signed_of_isFinite finite _

/-- **The digits of a finite double are read as its magnitude.** -/
theorem Token.readNumeral_digits {v : Float} (finite : v.isFinite = true) :
    Token.readNumeral (Number.digits v) = .ok v.abs := by
  obtain ⟨d, read, same⟩ := Decimal.ofNumeral?_positional (Decimal.shortest v)
  have value : d.toFloat = v.abs :=
    (Decimal.toFloat_congr same).trans (Decimal.toFloat_shortest finite)
  simp only [Token.readNumeral, Number.digits, read, value, Binary64.isFinite_abs finite, if_true]

namespace Piece

variable {ds : Text}

/-- A numeral is cut into its digits. -/
theorem cut_digits (some : ds ≠ []) (digits : ∀ c ∈ ds, Decimal.isNumeral c = true) :
    cut ds = ds.map digit := by
  rw [cut, shown_of_kept fun c member => kept_of_isNumeral (digits c member),
    Lexeme.split_numeral some digits]
  exact List.append_nil _

theorem wraps_digits (ds : Text) : Wraps (ds.map digit) (ds.map digit) := by
  induction ds with
  | nil => exact wraps_nil
  | cons c ds ih => exact wraps_cons (p := digit c) nofun nofun nofun ih

theorem write_digits (ds : Text) : write (ds.map digit) = ds := by
  induction ds with
  | nil => rfl
  | cons c ds ih =>
      cases ds with
      | nil => rfl
      | cons d ds =>
          rw [List.map_cons, List.map_cons, write_cons, ← List.map_cons, ih]
          rfl

end Piece

section Numerals

variable {ds : Text} {v : Float}

/-- **A numeral spells its number.** -/
theorem Spells.numeral (some : ds ≠ []) (digits : ∀ c ∈ ds, Decimal.isNumeral c = true)
    (value : Token.readNumeral ds = .ok v) : Spells ds (Phrase.number v) := by
  have wraps := Piece.wraps_digits ds
  rw [← Piece.cut_digits some digits] at wraps
  apply of_wraps wraps
  rw [Piece.cut_digits some digits, Piece.write_digits, Lexeme.split_numeral some digits,
    Phrase.tokens]
  exact .numeral value (.nil true)

/-- Right after a minus sign a numeral spells the opposite number. -/
theorem Spells.signedNumeral (some : ds ≠ []) (digits : ∀ c ∈ ds, Decimal.isNumeral c = true)
    (value : Token.readNumeral ds = .ok v) : Spells ('-' :: ds) (Phrase.number (-v)) := by
  have wraps : Piece.Wraps (Piece.cut ('-' :: ds)) (.other '-' :: ds.map Piece.digit) := by
    rw [Piece.cut_cons rfl rfl, Piece.cut_digits some digits]
    exact Piece.wraps_cons (by decide) (by decide) (by decide) (Piece.wraps_digits ds)
  apply of_wraps wraps
  rw [Piece.write_other_cons (by decide) (by decide), Piece.write_digits,
    Lexeme.split_cons_of_standsAlone rfl, Lexeme.split_numeral some digits, Phrase.tokens]
  exact .signed value (.nil true)

/-- **A finite double is written as a text that spells it.** -/
theorem Spells.number (finite : v.isFinite = true) :
    Spells (Number.text v) (Phrase.number v) := by
  have value := Token.readNumeral_digits finite
  have digits : ∀ c ∈ Number.digits v, Decimal.isNumeral c = true :=
    fun c member => Decimal.isNumeral_of_mem_positional member
  have some : Number.digits v ≠ [] := Decimal.positional_ne_nil _
  have whole := Binary64.eq_of_abs finite
  rw [Number.text_of_isFinite finite]
  cases negative : Binary64.isNegative v with
  | false =>
      rw [negative, if_neg Bool.false_ne_true] at whole
      have spells := Spells.numeral some digits value
      rw [← whole] at spells
      rw [if_neg Bool.false_ne_true]
      exact spells
  | true =>
      rw [negative, if_pos rfl] at whole
      have spells := Spells.signedNumeral some digits value
      rw [← whole] at spells
      rw [if_pos rfl]
      exact spells

end Numerals

/-! ## Trees -/

namespace Expr

/-- The category of what a tree is written as: a negation begins with its sign, and anything else
can stand before the sign of a factorial. -/
def category : Expr → Category
  | negate _ => .unary
  | _ => .suffixed

theorem level_category (e : Expr) : Category.unary.level ≤ e.category.level := by
  cases e <;> simp [category, Category.level]

/-- A factorial puts a negation between parentheses. -/
theorem category_of_bare {e : Expr} (bare : (e.isAtom || e.text.head? == some '(') = true) :
    e.category = .suffixed := by
  cases e with
  | negate x => cases bare
  | _ => rfl

/-- What a tree is written as can be the whole of an entry. -/
theorem spellsTree_sum {e : Expr} (spells : SpellsTree e.text e.category e e.height) :
    SpellsTree e.text .sum e e.height :=
  spells.looser .sum e.category.level_pos

/-- **A tree of finite numbers is written as a text that spells it.** -/
theorem spellsTree_text (e : Expr) (finite : e.finiteLeaves = true) :
    SpellsTree e.text e.category e e.height := by
  induction e with
  | number v =>
      have numeral : SpellsTree (Number.text v) .primary (.number v) 0 :=
        ⟨.number v, .number finite, rfl, Nat.le_refl 0⟩
      rw [text_number, numberText]
      split
      · exact (numeral.looser .sum (by decide)).group .suffixed
      · exact (numeral.looser .suffixed (by decide)).mono (Nat.zero_le _)
  | negate x ih =>
      exact (spellsTree_sum (ih finite)).negate
  | factorial x ih =>
      have operand := ih finite
      rw [text]
      split
      · rename_i bare
        rw [category_of_bare bare] at operand
        exact operand.factorial.mono (Nat.le_succ _)
      · exact ((spellsTree_sum operand).group .suffixed).factorial
  | call f x ih =>
      exact (spellsTree_sum (ih finite)).call f
  | binary o a b iha ihb =>
      rw [finiteLeaves, Bool.and_eq_true] at finite
      have first : SpellsTree a.text o.left a a.height :=
        (iha finite.1).looser o.left (Nat.le_trans (by cases o <;> decide) a.level_category)
      have second : SpellsTree b.text o.right b b.height :=
        (ihb finite.2).looser o.right (Nat.le_trans (by cases o <;> decide) b.level_category)
      have joined : SpellsTree (a.text ++ [' '] ++ [o.sign] ++ [' '] ++ b.text) o.left
          (.binary o a b) (max a.height b.height) :=
        .binary o.sign_mem_spellings (List.all_eq_true.1 rfl) first second
      have whole := (joined.looser .sum o.left.level_pos).group .suffixed
      simp only [List.append_assoc, List.singleton_append] at whole
      exact whole

/-- **A written tree is read back.**  Whatever tree of finite numbers is written, the text is read
as tokens, the tokens are taken as a postfix list and the list as that same tree, given limits on
the nesting and on the height that are no lower than the height of the tree. -/
theorem text_reads_back (e : Expr) (finite : e.finiteLeaves = true) (maxNesting maxHeight : Nat)
    (nests : e.height ≤ maxNesting) (low : e.height ≤ maxHeight) :
    ∃ ts listed, Token.read (normalize e.text) = .ok ts ∧
      Postfix.ofTokens maxNesting ts = .ok listed ∧ Postfix.tree maxHeight listed = .ok e := by
  obtain ⟨x, spells, rfl, shallow⟩ := spellsTree_sum (e.spellsTree_text finite)
  exact ⟨x.tokens, x.tree.postorder, spells, x.ofTokens_tokens (Nat.le_trans shallow nests),
    Postfix.tree_postorder_of_le low⟩

/-- The operand `-(-0)` of a factorial gets parentheses, the operand `(-2)` has its own. -/
theorem text_reads_back_factorial :
    let e : Expr := .binary .sub (.factorial (.negate (.number (-0)))) (.factorial (.number (-2)))
    e.text = "((-(-0))! - (-2)!)" ∧
      ∃ ts listed, Token.read (normalize e.text) = .ok ts ∧
        Postfix.ofTokens 4 ts = .ok listed ∧ Postfix.tree 4 listed = .ok e := by
  intro e
  exact ⟨by decide +kernel, text_reads_back e rfl 4 4 (by decide) (by decide)⟩

theorem readsAs_text (e : Expr) (finite : e.finiteLeaves = true) : ReadsAs e.text e :=
  (e.spellsTree_text finite).readsAs

/-- No two trees of finite numbers are written alike. -/
theorem text_injective (a b : Expr) (finite : a.finiteLeaves = true)
    (finite' : b.finiteLeaves = true) (same : a.text = b.text) : a = b := by
  have first := readsAs_text a finite
  rw [same] at first
  exact first.unique (readsAs_text b finite')

end Expr

end SciCalc
