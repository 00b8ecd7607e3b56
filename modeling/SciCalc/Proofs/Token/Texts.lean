/-
# SciCalc.Proofs.Token.Texts -- written tokens are read back

The written form of a token that was read is read as that token alone where the
token was read (`Token.lexes_name`, `Token.lexes_char`, `Token.lexes_number`,
`Token.lexes_signed`), and the space after it is read together with nothing.  So
tokens are read back one by one (`Token.lexes_listText_cons`), each where the one
before it ends: a number that begins with a minus sign comes where no operand has
just ended, and a minus sign is kept apart from the number after it.
-/
import SciCalc.Proofs.Working

namespace SciCalc

set_option autoImplicit false

namespace Token

open Lexeme

variable {closed : Bool}

/-! ## Single tokens -/

theorem lexes_name {w : Text} (some : w ≠ []) (letters : ∀ c ∈ w, c.isAlpha = true)
    (small : w.map Char.toLower = w) : Lexes closed (split w) [name w] := by
  have read : Lexes closed [.word w] [name (w.map Char.toLower)] := .word w (.nil false)
  rw [split_word some letters]
  rwa [small] at read

/-- A character that is a token is read as it. -/
theorem lexes_char {c : Char} {t : Token} (alone : standsAlone c = true)
    (single : ofChar c = .ok (some t)) : Lexes closed (split [c]) [t] := by
  rw [split_cons_of_standsAlone alone, split_nil]
  exact .char (.inl (by simp [Apart])) single (.nil _)

/-- A token that is a character by itself is written as it, but for the root sign. -/
theorem text_of_ofChar {c : Char} {t : Token} (single : ofChar c = .ok (some t))
    (noRoot : c ≠ '√') : t.text = [c] := by
  have ofSigns : ∀ p ∈ signs, p.2.text = [p.1] := by decide
  rcases ofChar_inv single with sign | ⟨isRoot, -⟩ | ⟨-, rfl⟩
  · exact ofSigns _ sign
  · exact absurd isRoot noRoot
  · rfl

theorem split_digits (v : Float) : split (Number.digits v) = [.numeral (Number.digits v)] :=
  split_numeral (Decimal.positional_ne_nil _) fun _ member =>
    Decimal.isNumeral_of_mem_positional member

/-- A number without a sign is read anywhere. -/
theorem lexes_number {v : Float} (finite : v.isFinite = true)
    (clear : Binary64.isNegative v = false) : Lexes closed (split (number v).text) [number v] := by
  have whole := Binary64.eq_of_abs finite
  rw [clear, if_neg Bool.false_ne_true] at whole
  have read : Lexes closed [.numeral (Number.digits v)] [number v.abs] :=
    .numeral (readNumeral_digits finite) (.nil true)
  rw [text, Number.text_of_isFinite finite, clear, if_neg Bool.false_ne_true, split_digits]
  rwa [← whole] at read

/-- A number with a sign is read where no operand has just ended. -/
theorem lexes_signed {v : Float} (finite : v.isFinite = true)
    (negative : Binary64.isNegative v = true) : Lexes false (split (number v).text) [number v] := by
  have whole := Binary64.eq_of_abs finite
  rw [negative, if_pos rfl] at whole
  have read : Lexes false [.char '-', .numeral (Number.digits v)] [number (-v.abs)] :=
    .signed (readNumeral_digits finite) (.nil true)
  rw [text, Number.text_of_isFinite finite, negative, if_pos rfl,
    split_cons_of_standsAlone (by decide), split_digits]
  rwa [← whole] at read

/-! ## Lists of tokens -/

/-- **A token and those after it** are read back from their written forms if each part is. -/
theorem lexes_listText_cons {t : Token} {ts : List Token}
    (first : Lexes closed (split t.text) [t])
    (rest : Lexes t.closesValue (split (listText ts)) ts) :
    Lexes closed (split (listText (t :: ts))) (t :: ts) := by
  cases ts with
  | nil => exact first
  | cons u us =>
      have joined : listText (t :: u :: us) = t.text ++ ' ' :: listText (u :: us) := by
        simp [listText, Text.join]
      rw [joined, split_append_cons (by decide),
        lexes_append_iff (apart_of_head (by simp) (by simp))]
      exact ⟨[t], u :: us, rfl, first, .blank rfl rest⟩

/-- **The tokens of lexemes are read back** from their written form. -/
theorem Lexes.listText {ls : List Lexeme} {ts : List Token} (lexes : Lexes closed ls ts)
    (drawn : ∀ l ∈ ls, l.Drawn fun _ => True) (alone : ∀ c, .char c ∈ ls → standsAlone c = true) :
    Lexes closed (split (listText ts)) ts := by
  induction lexes with
  | nil closed => exact .nil closed
  | @word closed w ls ts rest ih =>
      obtain ⟨first, others⟩ := List.forall_mem_cons.1 drawn
      have some : w.map Char.toLower ≠ [] := by simpa using first.1
      have letters := isAlpha_of_mem_map_toLower fun c member => (first.2 c member).2
      have small : (w.map Char.toLower).map Char.toLower = w.map Char.toLower := by simp
      exact lexes_listText_cons (lexes_name some letters small)
        (ih others fun c member => alone c (.tail _ member))
  | numeral value rest ih =>
      obtain ⟨finite, clear⟩ := readNumeral_spec value
      exact lexes_listText_cons (lexes_number finite clear)
        (ih (List.forall_mem_cons.1 drawn).2 fun c member => alone c (.tail _ member))
  | @signed d v ls ts value rest ih =>
      obtain ⟨finite, clear⟩ := readNumeral_spec value
      have negative : Binary64.isNegative (-v) = true := by
        rw [(Binary64.fields_neg (Binary64.isNaN_of_isFinite finite)).1, clear]
        rfl
      exact lexes_listText_cons (lexes_signed (Binary64.isFinite_neg finite) negative)
        (ih (fun l member => drawn l (.tail _ (.tail _ member)))
          fun c member => alone c (.tail _ (.tail _ member)))
  | power rest ih =>
      exact lexes_listText_cons (lexes_char (by decide) rfl)
        (ih (fun l member => drawn l (.tail _ (.tail _ member)))
          fun c member => alone c (.tail _ (.tail _ member)))
  | blank white rest ih =>
      exact ih (List.forall_mem_cons.1 drawn).2 fun c member => alone c (.tail _ member)
  | @char closed c t ls ts apart single rest ih =>
      refine lexes_listText_cons ?_
        (ih (List.forall_mem_cons.1 drawn).2 fun c member => alone c (.tail _ member))
      by_cases root : c = '√'
      · rw [root] at single
        obtain rfl := Option.some.inj (Except.ok.inj single)
        have letters := Func.sqrt.name_letters
        exact lexes_name letters.1 letters.2 Func.sqrt.name_map_toLower
      · rw [text_of_ofChar single root]
        exact lexes_char (alone c (.head _)) single

/-- **Written tokens are read back**, whether or not they make sense together: what is written for
the tokens of a text, with a space between neighbours, has the same tokens. -/
theorem read_listText_of_read (t : Text) (ts : List Token) (done : read t = .ok ts) :
    read (listText ts) = .ok ts :=
  ((lexes_of_read done).listText (fun _ => drawn_of_mem_split)
    fun _ => standsAlone_of_mem_split).read

/-- A negative zero after a minus sign, and two stars that are no power sign. -/
theorem read_listText_of_read_signs :
    let ts : List Token := [.number 2, .operator .sub, .number (-0), .operator .mul, .operator .mul,
      .name Func.sqrt.name, .name "x"]
    read "2--0* *√X".toList = .ok ts ∧ listText ts = "2 - -0 * * sqrt x".toList ∧
      read (listText ts) = .ok ts := by
  intro ts
  have done : read "2--0* *√X".toList = .ok ts := rfl
  exact ⟨done, by decide +kernel, read_listText_of_read _ _ done⟩

end Token

end SciCalc
