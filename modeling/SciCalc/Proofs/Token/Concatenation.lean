/-
# SciCalc.Proofs.Token.Concatenation -- reading texts one after another

A character that is neither a letter nor part of a numeral is a lexeme by
itself, so a text can be cut at it (`Lexeme.split_append_cons`).  Two lists of
lexemes are read one after the other (`Token.ofLexemes_append`) unless the last
lexeme of the first and the first of the second are read together, which only a
minus sign with a numeral and a star with a star are.

The readings that succeed are given by rules, `Token.Lexes`, one for each way in
which the next token is read (`Token.ofLexemes_eq_ok_iff`); facts about the
tokens of a text are inductions over these rules, and what a character can be a
token as is told by `Token.ofChar_inv`.
-/
import SciCalc.Proofs.Text.Classes
import SciCalc.Token.Reading

namespace SciCalc

set_option autoImplicit false

namespace Lexeme

/-! ## Cutting a text -/

/-- Whether a character is a lexeme by itself. -/
def standsAlone (c : Char) : Bool := !c.isAlpha && !Decimal.isNumeral c

theorem standsAlone_iff {c : Char} :
    standsAlone c = true ↔ c.isAlpha = false ∧ Decimal.isNumeral c = false := by
  simp only [standsAlone, Bool.and_eq_true, Bool.not_eq_true']

theorem push_of_standsAlone {c : Char} (alone : standsAlone c = true) (ls : List Lexeme) :
    push c ls = char c :: ls := by
  obtain ⟨noLetter, noNumeral⟩ := standsAlone_iff.1 alone
  simp [push, noLetter, noNumeral]

/-- A character reaches no further than the first lexeme. -/
theorem push_cons_append (c : Char) (l : Lexeme) (ls rest : List Lexeme) :
    push c (l :: ls ++ rest) = push c (l :: ls) ++ rest := by
  unfold push
  split
  · cases l <;> rfl
  · split
    · cases l <;> rfl
    · rfl

theorem push_append_char (c d : Char) (ls rest : List Lexeme) :
    push c (ls ++ char d :: rest) = push c ls ++ char d :: rest := by
  cases ls with
  | nil =>
      simp only [List.nil_append, push]
      split
      · rfl
      · split <;> rfl
  | cons l ls => exact push_cons_append c l ls (char d :: rest)

/-- **A text is cut at a character that stands alone.** -/
theorem split_append_cons {c : Char} (alone : standsAlone c = true) (t u : Text) :
    split (t ++ c :: u) = split t ++ char c :: split u := by
  induction t with
  | nil => rw [List.nil_append, split_cons, push_of_standsAlone alone, split_nil, List.nil_append]
  | cons d t ih => rw [List.cons_append, split_cons, ih, push_append_char, ← split_cons]

theorem split_cons_of_standsAlone {c : Char} (alone : standsAlone c = true) (u : Text) :
    split (c :: u) = char c :: split u :=
  split_append_cons alone [] u

/-- Letters are one word. -/
theorem split_word {w : Text} (some : w ≠ []) (letters : ∀ c ∈ w, c.isAlpha = true) :
    split w = [word w] := by
  induction w with
  | nil => exact absurd rfl some
  | cons c w ih =>
      have isLetter := letters c (List.mem_cons_self ..)
      cases w with
      | nil => simp [split, push, isLetter]
      | cons d w =>
          rw [split_cons, ih (by simp) fun x member => letters x (List.mem_cons_of_mem c member)]
          simp [push, isLetter]

/-- Digits and points are one numeral. -/
theorem split_numeral {w : Text} (some : w ≠ []) (digits : ∀ c ∈ w, Decimal.isNumeral c = true) :
    split w = [numeral w] := by
  induction w with
  | nil => exact absurd rfl some
  | cons c w ih =>
      have isNumeral := digits c (List.mem_cons_self ..)
      have notLetter := isAlpha_eq_false_of_isNumeral isNumeral
      cases w with
      | nil => simp [split, push, isNumeral, notLetter]
      | cons d w =>
          rw [split_cons, ih (by simp) fun x member => digits x (List.mem_cons_of_mem c member)]
          simp [push, isNumeral, notLetter]

/-! ## Lexemes read together -/

/-- Whether two neighbours are read together. -/
def fuses : Lexeme → Lexeme → Bool
  | char '-', numeral _ => true
  | char '*', char '*' => true
  | _, _ => false

/-- Lists whose lexemes at the seam are not read together. -/
def Apart (ls rest : List Lexeme) : Prop :=
  ∀ a ∈ ls.getLast?, ∀ b ∈ rest.head?, fuses a b = false

theorem apart_nil (rest : List Lexeme) : Apart [] rest := by simp [Apart]

theorem Apart.tail {l : Lexeme} {ls rest : List Lexeme} (apart : Apart (l :: ls) rest) :
    Apart ls rest := by
  cases ls with
  | nil => exact apart_nil rest
  | cons m ls => simpa [Apart] using apart

/-- A character apart from what follows it, in the words of the recursion that reads it. -/
theorem apart_of_not_fused {c : Char} {ls : List Lexeme}
    (noNumeral : ∀ digits more, ls = numeral digits :: more → c = '-' → False)
    (noStar : ∀ more, ls = char '*' :: more → c = '*' → False) : Apart [char c] ls := by
  cases ls with
  | nil => simp [Apart]
  | cons l ls =>
      intro a last b first
      obtain rfl := Option.some.inj last
      obtain rfl := Option.some.inj first
      unfold fuses
      split
      · rename_i digits isMinus
        exact (noNumeral _ _ rfl (Lexeme.char.inj isMinus)).elim
      · rename_i isStar
        exact (noStar _ rfl (Lexeme.char.inj isStar)).elim
      · rfl

/-- A character that is neither a minus sign nor a star is apart from whatever follows it. -/
theorem apart_char {c : Char} (noMinus : c ≠ '-') (noStar : c ≠ '*') (ls : List Lexeme) :
    Apart [char c] ls :=
  apart_of_not_fused (fun _ _ _ same => noMinus same) (fun _ _ same => noStar same)

/-- Nothing is read together with what neither is a star nor begins a numeral. -/
theorem apart_of_head {ls rest : List Lexeme} (numerals : ∀ d, rest.head? ≠ some (numeral d))
    (stars : rest.head? ≠ some (char '*')) : Apart ls rest := by
  intro a _ b first
  unfold fuses
  split
  · exact absurd first (numerals _)
  · exact absurd first stars
  · rfl

end Lexeme

namespace Token

open Lexeme

/-! ## Reading on -/

/-- Whether an operand has just ended after tokens, given whether one had before them. -/
def closedAfter : Bool → List Token → Bool
  | closed, [] => closed
  | _, t :: ts => closedAfter t.closesValue ts

@[simp] theorem closedAfter_nil (closed : Bool) : closedAfter closed [] = closed := rfl

@[simp] theorem closedAfter_cons (closed : Bool) (t : Token) (ts : List Token) :
    closedAfter closed (t :: ts) = closedAfter t.closesValue ts := rfl

@[simp] theorem closedAfter_append (closed : Bool) (ts us : List Token) :
    closedAfter closed (ts ++ us) = closedAfter (closedAfter closed ts) us := by
  induction ts generalizing closed with
  | nil => rfl
  | cons t ts ih => exact ih t.closesValue

/-- Reads lexemes after tokens that have been read. -/
def readOn (closed : Bool) (rest : List Lexeme) (ts : List Token) : Except Fault (List Token) :=
  (ofLexemes (closedAfter closed ts) rest).map (ts ++ ·)

theorem ok_bind {α β : Type} (v : α) (next : α → Except Fault β) :
    (Except.ok v : Except Fault α).bind next = next v := rfl

/-- One token first, then the others. -/
theorem map_cons_bind_readOn (closed : Bool) (t : Token) (rest : List Lexeme)
    (read : Except Fault (List Token)) :
    (read.map (t :: ·)).bind (readOn closed rest) =
      (read.bind (readOn t.closesValue rest)).map (t :: ·) := by
  cases read with
  | error fault => rfl
  | ok ts =>
      simp only [Except.map, Except.bind, readOn, closedAfter_cons]
      cases ofLexemes (closedAfter t.closesValue ts) rest <;> rfl

theorem ofLexemes_word (closed : Bool) (w : Text) (rest : List Lexeme) :
    ofLexemes closed (word w :: rest) =
      (ofLexemes false rest).map (name (w.map Char.toLower) :: ·) := by
  rw [ofLexemes]
  cases ofLexemes false rest <;> rfl

theorem ofLexemes_numeral (closed : Bool) (d : Text) (rest : List Lexeme) :
    ofLexemes closed (numeral d :: rest) =
      (readNumeral d).bind fun v => (ofLexemes true rest).map (number v :: ·) := by
  rw [ofLexemes]
  cases readNumeral d with
  | error fault => rfl
  | ok v => cases ofLexemes true rest <;> rfl

/-- A minus sign right before a numeral, where an operand has just ended. -/
theorem ofLexemes_minus_numeral (d : Text) (rest : List Lexeme) :
    ofLexemes true (char '-' :: numeral d :: rest) =
      (ofLexemes false (numeral d :: rest)).map (operator .sub :: ·) := by
  rw [ofLexemes_numeral, ofLexemes, if_pos rfl]
  cases readNumeral d with
  | error fault => rfl
  | ok v =>
      rw [ok_bind]
      cases ofLexemes true rest <;> rfl

/-- The sign of a numeral. -/
theorem ofLexemes_sign_numeral (d : Text) (rest : List Lexeme) :
    ofLexemes false (char '-' :: numeral d :: rest) =
      (readNumeral d).bind fun v => (ofLexemes true rest).map (number (-v) :: ·) := by
  rw [ofLexemes]
  cases readNumeral d with
  | error fault => rfl
  | ok v => cases ofLexemes true rest <;> rfl

theorem ofLexemes_power (closed : Bool) (rest : List Lexeme) :
    ofLexemes closed (char '*' :: char '*' :: rest) =
      (ofLexemes false rest).map (operator .pow :: ·) := by
  rw [ofLexemes]
  cases ofLexemes false rest <;> rfl

/-- A character that is read by itself. -/
theorem ofLexemes_char {closed : Bool} {c : Char} {rest : List Lexeme}
    (apart : Apart [char c] rest) :
    ofLexemes closed (char c :: rest) = (ofChar c).bind fun t =>
      match t with
      | none => ofLexemes closed rest
      | some t => (ofLexemes t.closesValue rest).map (t :: ·) := by
  rw [ofLexemes]
  · cases ofChar c with
    | error fault => rfl
    | ok t =>
        cases t with
        | none => rfl
        | some t =>
            simp only [bind, Except.bind]
            cases ofLexemes t.closesValue rest <;> rfl
  · rintro digits more rfl rfl
    simpa [fuses] using apart (char '-') rfl (numeral digits) rfl
  · rintro more rfl rfl
    simpa [fuses] using apart (char '*') rfl (char '*') rfl

/-- A character that is read by itself, as a token. -/
theorem ofLexemes_char_some {closed : Bool} {c : Char} {t : Token} {rest : List Lexeme}
    (apart : Apart [char c] rest) (single : ofChar c = .ok (some t)) :
    ofLexemes closed (char c :: rest) = (ofLexemes t.closesValue rest).map (t :: ·) := by
  rw [ofLexemes_char apart, single]
  rfl

/-! ## The rules of reading -/

theorem bind_eq_ok {α β : Type} {read : Except Fault α} {next : α → Except Fault β} {v : β}
    (bound : read.bind next = .ok v) : ∃ u, read = .ok u ∧ next u = .ok v := by
  cases read with
  | error fault => cases bound
  | ok u => exact ⟨u, rfl, bound⟩

theorem map_cons_eq_ok {t : Token} {ts : List Token} {read : Except Fault (List Token)}
    (mapped : read.map (t :: ·) = .ok ts) : ∃ us, read = .ok us ∧ ts = t :: us := by
  cases read with
  | error fault => cases mapped
  | ok us => exact ⟨us, rfl, (Except.ok.inj mapped).symm⟩

/-- The tokens of lexemes, one rule for each way in which the next token is read. -/
inductive Lexes : Bool → List Lexeme → List Token → Prop
  | nil (closed : Bool) : Lexes closed [] []
  | word {closed : Bool} (w : Text) {ls : List Lexeme} {ts : List Token}
      (rest : Lexes false ls ts) :
      Lexes closed (.word w :: ls) (name (w.map Char.toLower) :: ts)
  | numeral {closed : Bool} {d : Text} {v : Float} {ls : List Lexeme} {ts : List Token}
      (value : readNumeral d = .ok v) (rest : Lexes true ls ts) :
      Lexes closed (.numeral d :: ls) (number v :: ts)
  | signed {d : Text} {v : Float} {ls : List Lexeme} {ts : List Token}
      (value : readNumeral d = .ok v) (rest : Lexes true ls ts) :
      Lexes false (.char '-' :: .numeral d :: ls) (number (-v) :: ts)
  | power {closed : Bool} {ls : List Lexeme} {ts : List Token} (rest : Lexes false ls ts) :
      Lexes closed (.char '*' :: .char '*' :: ls) (operator .pow :: ts)
  | blank {closed : Bool} {c : Char} {ls : List Lexeme} {ts : List Token}
      (white : isBlank c = true) (rest : Lexes closed ls ts) : Lexes closed (.char c :: ls) ts
  | char {closed : Bool} {c : Char} {t : Token} {ls : List Lexeme} {ts : List Token}
      (apart : Apart [.char c] ls ∨ closed = true ∧ c = '-') (single : ofChar c = .ok (some t))
      (rest : Lexes t.closesValue ls ts) : Lexes closed (.char c :: ls) (t :: ts)

/-- The signs that are tokens by themselves. -/
def signs : List (Char × Token) :=
  [('(', openGroup), (')', closeGroup), ('+', operator .add), ('-', operator .sub),
    ('*', operator .mul), ('/', operator .div), ('^', operator .pow), ('!', factorial)]

/-- **A character that is a token** is a sign, a root sign or a letter. -/
theorem ofChar_inv {c : Char} {t : Token} (single : ofChar c = .ok (some t)) :
    (c, t) ∈ signs ∨ c = '√' ∧ t = name Func.sqrt.name ∨ isLetter c = true ∧ t = name [c] := by
  unfold ofChar at single
  split at single
  · cases single
  · split at single
    case h_9 => exact .inr (.inl ⟨rfl, (Option.some.inj (Except.ok.inj single)).symm⟩)
    case h_10 =>
      split at single
      · rename_i letter
        exact .inr (.inr ⟨letter, (Option.some.inj (Except.ok.inj single)).symm⟩)
      · split at single <;> cases single
    all_goals
      obtain rfl := Option.some.inj (Except.ok.inj single)
      exact .inl (by simp [signs])

/-- A character without a token is white space. -/
theorem isBlank_of_ofChar {c : Char} (none : ofChar c = .ok .none) : isBlank c = true := by
  unfold ofChar at none
  split at none
  · assumption
  · split at none <;> try cases none
    split at none
    · cases none
    · split at none <;> cases none

/-- White space is dropped. -/
theorem ofChar_of_isBlank {c : Char} (white : isBlank c = true) : ofChar c = .ok none :=
  if_pos white

/-- White space is read together with nothing. -/
theorem apart_of_isBlank {c : Char} (white : isBlank c = true) (ls : List Lexeme) :
    Apart [.char c] ls := by
  apply apart_of_not_fused
  · rintro digits more - rfl
    cases white
  · rintro more - rfl
    cases white

theorem Lexes.read {closed : Bool} {ls : List Lexeme} {ts : List Token}
    (lexes : Lexes closed ls ts) : ofLexemes closed ls = .ok ts := by
  induction lexes with
  | nil closed => rfl
  | word w rest ih =>
      rw [ofLexemes_word, ih]
      rfl
  | numeral value rest ih =>
      rw [ofLexemes_numeral, value, ok_bind, ih]
      rfl
  | signed value rest ih =>
      rw [ofLexemes_sign_numeral, value, ok_bind, ih]
      rfl
  | power rest ih =>
      rw [ofLexemes_power, ih]
      rfl
  | blank white rest ih =>
      rw [ofLexemes_char (apart_of_isBlank white _), ofChar_of_isBlank white]
      exact ih
  | @char closed c t ls ts apart single rest ih =>
      rcases apart with apart | ⟨rfl, rfl⟩
      · rw [ofLexemes_char_some apart single, ih]
        rfl
      · obtain rfl : Token.operator .sub = t := Option.some.inj (Except.ok.inj single)
        cases ls with
        | nil =>
            rw [ofLexemes_char_some (by simp [Apart]) single, ih]
            rfl
        | cons l ls =>
            cases l with
            | numeral d =>
                rw [ofLexemes_minus_numeral,
                  show ofLexemes false (.numeral d :: ls) = .ok ts from ih]
                rfl
            | _ =>
                rw [ofLexemes_char_some (by simp [Apart, fuses]) single, ih]
                rfl

theorem lexes_of_read {closed : Bool} {ls : List Lexeme} {ts : List Token}
    (read : ofLexemes closed ls = .ok ts) : Lexes closed ls ts := by
  induction closed, ls using ofLexemes.induct generalizing ts with
  | case1 closed =>
      obtain rfl := Except.ok.inj read
      exact .nil closed
  | case2 closed w ls ih =>
      rw [ofLexemes_word] at read
      obtain ⟨us, tail, rfl⟩ := map_cons_eq_ok read
      exact .word w (ih tail)
  | case3 closed d ls ih =>
      rw [ofLexemes_numeral] at read
      obtain ⟨v, value, read⟩ := bind_eq_ok read
      obtain ⟨us, tail, rfl⟩ := map_cons_eq_ok read
      exact .numeral value (ih tail)
  | case4 d ls ih =>
      rw [ofLexemes_minus_numeral, ofLexemes_numeral] at read
      obtain ⟨us, inner, rfl⟩ := map_cons_eq_ok read
      obtain ⟨v, value, after⟩ := bind_eq_ok inner
      obtain ⟨vs, tail, rfl⟩ := map_cons_eq_ok after
      exact .char (.inr ⟨rfl, rfl⟩) rfl (.numeral value (ih tail))
  | case5 closed d ls notClosed ih =>
      obtain rfl : closed = false := by simpa using notClosed
      rw [ofLexemes_sign_numeral] at read
      obtain ⟨v, value, read⟩ := bind_eq_ok read
      obtain ⟨us, tail, rfl⟩ := map_cons_eq_ok read
      exact .signed value (ih tail)
  | case6 closed ls ih =>
      rw [ofLexemes_power] at read
      obtain ⟨us, tail, rfl⟩ := map_cons_eq_ok read
      exact .power (ih tail)
  | case7 closed c ls noNumeral noStar ihBlank ihToken =>
      have apart := apart_of_not_fused noNumeral noStar
      rw [ofLexemes_char apart] at read
      obtain ⟨t, single, read⟩ := bind_eq_ok read
      cases t with
      | none => exact .blank (isBlank_of_ofChar single) (ihBlank read)
      | some t =>
          obtain ⟨us, tail, rfl⟩ := map_cons_eq_ok read
          exact .char (.inl apart) single (ihToken t tail)

/-- **The rules give exactly the readings.** -/
theorem ofLexemes_eq_ok_iff {closed : Bool} {ls : List Lexeme} {ts : List Token} :
    ofLexemes closed ls = .ok ts ↔ Lexes closed ls ts :=
  ⟨lexes_of_read, Lexes.read⟩

/-! ## Concatenation -/

/-- **Two lists of lexemes are read one after the other.** -/
theorem ofLexemes_append {closed : Bool} {ls rest : List Lexeme} (apart : Apart ls rest) :
    ofLexemes closed (ls ++ rest) = (ofLexemes closed ls).bind (readOn closed rest) := by
  induction closed, ls using ofLexemes.induct with
  | case1 closed =>
      simp only [List.nil_append, ofLexemes, Except.bind, readOn, closedAfter_nil]
      cases ofLexemes closed rest <;> rfl
  | case2 closed w ls ih =>
      rw [List.cons_append, ofLexemes_word, ofLexemes_word, ih apart.tail]
      exact (map_cons_bind_readOn ..).symm
  | case3 closed d ls ih =>
      rw [List.cons_append, ofLexemes_numeral, ofLexemes_numeral, ih apart.tail]
      cases readNumeral d with
      | error fault => rfl
      | ok v =>
          rw [ok_bind, ok_bind]
          exact (map_cons_bind_readOn ..).symm
  | case4 d ls ih =>
      rw [List.cons_append, List.cons_append, ofLexemes_minus_numeral, ofLexemes_minus_numeral,
        map_cons_bind_readOn, ofLexemes_numeral, ofLexemes_numeral, ih apart.tail.tail]
      cases readNumeral d with
      | error fault => rfl
      | ok v =>
          rw [ok_bind, ok_bind, map_cons_bind_readOn]
          rfl
  | case5 closed d ls notClosed ih =>
      obtain rfl : closed = false := by simpa using notClosed
      rw [List.cons_append, List.cons_append, ofLexemes_sign_numeral, ofLexemes_sign_numeral,
        ih apart.tail.tail]
      cases readNumeral d with
      | error fault => rfl
      | ok v =>
          rw [ok_bind, ok_bind]
          exact (map_cons_bind_readOn ..).symm
  | case6 closed ls ih =>
      rw [List.cons_append, List.cons_append, ofLexemes_power, ofLexemes_power,
        ih apart.tail.tail]
      exact (map_cons_bind_readOn ..).symm
  | case7 closed c ls noNumeral noStar ihBlank ihToken =>
      -- what stands after the character is the same on both sides unless `ls` is empty
      have apartS := apart_of_not_fused noNumeral noStar
      have apartC : Apart [char c] (ls ++ rest) := by
        cases ls with
        | nil => exact apart
        | cons l ls => simpa [Apart] using apartS
      rw [List.cons_append, ofLexemes_char apartC, ofLexemes_char apartS]
      cases ofChar c with
      | error fault => rfl
      | ok t =>
          cases t with
          | none => exact ihBlank apart.tail
          | some t =>
              rw [ok_bind, ok_bind]
              simp only
              rw [ihToken t apart.tail]
              exact (map_cons_bind_readOn ..).symm

/-- **The readings of two lists of lexemes** are the readings of the first followed by those of the
second, read on where the first ended. -/
theorem lexes_append_iff {closed : Bool} {ls rest : List Lexeme} {ts : List Token}
    (apart : Apart ls rest) :
    Lexes closed (ls ++ rest) ts ↔
      ∃ us vs, ts = us ++ vs ∧ Lexes closed ls us ∧ Lexes (closedAfter closed us) rest vs := by
  simp only [← ofLexemes_eq_ok_iff, ofLexemes_append apart]
  constructor
  · intro read
    obtain ⟨us, first, read⟩ := bind_eq_ok read
    unfold readOn at read
    cases second : ofLexemes (closedAfter closed us) rest with
    | error fault =>
        rw [second] at read
        cases read
    | ok vs =>
        rw [second] at read
        exact ⟨us, vs, (Except.ok.inj read).symm, first, second⟩
  · rintro ⟨us, vs, rfl, first, second⟩
    rw [first, ok_bind, readOn, second]
    rfl

end Token

end SciCalc
