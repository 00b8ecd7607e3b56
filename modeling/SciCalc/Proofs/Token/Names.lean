/-
# SciCalc.Proofs.Token.Names -- the names in what a phrase is read from

Letters in a text lie in one word (`Lexeme.split_around`), and a word in a text
that is read as a phrase is the name of a function before a parenthesis
(`Phrase.head_of_name`).  So letters in such a text lie in the name of a function
(`Phrase.name_of_letters`).  No function but the square root has a name with that
of the square root in it, so the letters of the square root are a call of it
(`Phrase.head_of_sqrt`).
-/
import SciCalc.Proofs.Parentheses
import SciCalc.Proofs.Postfix.Completeness

namespace SciCalc

set_option autoImplicit false

namespace Lexeme

/-- Letters at the beginning of a text begin its first word. -/
theorem split_letters {w : Text} (some : w ≠ []) (letters : ∀ c ∈ w, c.isAlpha = true) (v : Text) :
    ∃ r rest, split (w ++ v) = word (w ++ r) :: rest ∧ v = r ++ spell rest := by
  induction w with
  | nil => exact absurd rfl some
  | cons c w ih =>
      have letter := letters c (List.mem_cons_self ..)
      rw [List.cons_append, split_cons]
      cases w with
      | nil =>
          have spelled := spell_split v
          simp only [push, if_pos letter, List.nil_append]
          split
          · rename_i r rest found
            refine ⟨r, rest, rfl, ?_⟩
            rw [← spelled, found]
            rfl
          · exact ⟨[], split v, rfl, spelled.symm⟩
      | cons d w =>
          obtain ⟨r, rest, found, spelled⟩ :=
            ih (by simp) fun x member => letters x (List.mem_cons_of_mem c member)
          refine ⟨r, rest, ?_, spelled⟩
          rw [found]
          simp [push, letter]

/-- A word that a text has at the end of its first part lies in a word of the whole. -/
theorem split_before {w x : Text} {rest : List Lexeme} (found : split x = word w :: rest)
    (u : Text) :
    ∃ before l, split (u ++ x) = before ++ word (l ++ w) :: rest := by
  induction u with
  | nil => exact ⟨[], [], found⟩
  | cons c u ih =>
      obtain ⟨before, l, whole⟩ := ih
      rw [List.cons_append, split_cons, whole]
      cases before with
      | nil =>
          rw [List.nil_append, push]
          split
          · exact ⟨[], c :: l, rfl⟩
          · split
            · exact ⟨[numeral [c]], l, rfl⟩
            · exact ⟨[char c], l, rfl⟩
      | cons a before =>
          rw [push_cons_append]
          exact ⟨push c (a :: before), l, rfl⟩

/-- **Letters in a text lie in one word of it.** -/
theorem split_around {w : Text} (some : w ≠ []) (letters : ∀ c ∈ w, c.isAlpha = true) (u v : Text) :
    ∃ before l r rest,
      split (u ++ (w ++ v)) = before ++ word (l ++ (w ++ r)) :: rest ∧ v = r ++ spell rest := by
  obtain ⟨r, rest, found, spelled⟩ := split_letters some letters v
  obtain ⟨before, l, whole⟩ := split_before found u
  exact ⟨before, l, r, rest, whole, spelled⟩

end Lexeme

namespace Func

/-- Every name is made of small letters. -/
theorem name_letters (f : Func) : f.name ≠ [] ∧ ∀ c ∈ f.name, c.isAlpha = true := by
  refine ⟨?_, List.all_eq_true.1 ?_⟩
  · cases f <;> decide
  · cases f <;> rfl

theorem name_map_toLower (f : Func) : f.name.map Char.toLower = f.name := by
  cases f <;> rfl

/-- The name of the square root is part of no other name. -/
theorem eq_sqrt_of_infix {f : Func} (inside : sqrt.name <:+: f.name) : f = sqrt := by
  revert inside
  cases f <;> decide

end Func

namespace Phrase

open Token

/-- A name among the tokens of a phrase is that of a function, with a group right after it. -/
theorem head_of_name (d : Phrase .sum) {before after : List Token} {w : Text}
    (found : d.tokens = before ++ name w :: after) :
    ∃ f : Func, w = f.name ∧ after.head? = some openGroup := by
  obtain ⟨z, run, -⟩ := Postfix.Yard.scan_tokens (y := {}) d rfl (Postfix.Pending.carries_nil _)
    (Nat.le_of_eq (Nat.zero_add d.nesting)) none
  rw [found] at run
  obtain ⟨x, -, run⟩ := Postfix.Yard.scan_append_ok.1 run
  obtain ⟨y, moves, -⟩ := Postfix.Yard.scan_cons_ok.1 run
  generalize isName : name w = t at moves
  cases moves with
  | call f due opens => exact ⟨f, Token.name.inj isName, by simpa using opens⟩
  | _ => cases isName

/-- Tokens that begin with a group are read from lexemes that do. -/
theorem head_of_openGroup {closed : Bool} {ls : List Lexeme} {ts : List Token}
    (lexes : Lexes closed ls ts) (opens : ts.head? = some openGroup)
    (visible : ∀ c, ls.head? = some (.char c) → isBlank c = false) :
    ls.head? = some (.char '(') := by
  cases lexes with
  | nil => cases opens
  | word w rest => cases opens
  | numeral value rest => cases opens
  | signed value rest => cases opens
  | power rest => cases opens
  | blank white rest =>
      rw [visible _ rfl] at white
      cases white
  | char apart single rest =>
      obtain rfl := Option.some.inj opens
      have isOpen := (Token.ofToken_of_ofChar single).symm
      rw [Paren.eq_of_ofChar_opens isOpen]
      rfl

/-- **A word among lexemes read as a phrase is the name of a function**, and the group that the
function is applied to comes right after it. -/
theorem exists_func_of_word (d : Phrase .sum) {before rest : List Lexeme} {w : Text}
    (lexes : Lexes false (before ++ .word w :: rest) d.tokens) :
    ∃ (f : Func) (after : List Token), w.map Char.toLower = f.name ∧ Lexes false rest after ∧
      after.head? = some openGroup := by
  obtain ⟨us, vs, found, -, after⟩ :=
    (lexes_append_iff (Lexeme.apart_of_head (by simp) (by simp))).1 lexes
  generalize closedAfter false us = closed at after
  cases after with
  | @word closed word ls ts after =>
      obtain ⟨f, named, opens⟩ := d.head_of_name found
      exact ⟨f, ts, named, after, opens⟩

/-- **Letters in a text read as a phrase lie in the name of a function**, and the group that the
function is applied to comes right after the name. -/
theorem name_of_letters (d : Phrase .sum) {u w v : Text} (some : w ≠ [])
    (letters : ∀ c ∈ w, c.isAlpha = true) (done : Token.read (u ++ (w ++ v)) = .ok d.tokens) :
    ∃ (f : Func) (l r : Text) (rest : List Lexeme) (after : List Token),
      f.name = (l ++ (w ++ r)).map Char.toLower ∧ v = r ++ Lexeme.spell rest ∧
        Lexes false rest after ∧ after.head? = Option.some openGroup := by
  obtain ⟨before, l, r, rest, whole, spelled⟩ := Lexeme.split_around some letters u v
  have cut : Lexes false (before ++ .word (l ++ (w ++ r)) :: rest) d.tokens :=
    whole ▸ lexes_of_read done
  obtain ⟨f, after, named, lexes, opens⟩ := d.exists_func_of_word cut
  exact ⟨f, l, r, rest, after, named.symm, spelled, lexes, opens⟩

/-- **The letters of the square root in a text read as a phrase are a call of it**: a visible
character right after them is the parenthesis of the group. -/
theorem head_of_sqrt (d : Phrase .sum) {u v : Text}
    (done : Token.read (u ++ (Func.sqrt.name ++ v)) = .ok d.tokens)
    (visible : ∀ c ∈ v.head?, isBlank c = false) : v.head? = some '(' := by
  obtain ⟨f, l, r, rest, after, named, rfl, lexes, opens⟩ :=
    d.name_of_letters Func.sqrt.name_letters.1 Func.sqrt.name_letters.2 done
  rw [List.map_append, List.map_append, Func.name_map_toLower] at named
  obtain rfl : f = .sqrt := Func.eq_sqrt_of_infix ⟨_, _, by rw [List.append_assoc, named]⟩
  have lengths := congrArg List.length named
  simp only [List.length_append, List.length_map] at lengths
  obtain rfl : r = [] := List.eq_nil_of_length_eq_zero (by omega)
  have first := head_of_openGroup lexes opens fun c begins => visible c (by
    obtain ⟨more, shape⟩ := List.head?_eq_some_iff.1 begins
    rw [shape]
    rfl)
  obtain ⟨more, shape⟩ := List.head?_eq_some_iff.1 first
  rw [shape]
  rfl

end Phrase

end SciCalc
