/-
# SciCalc.Proofs.Working -- the record of an evaluation is evaluated to itself

The record of an evaluation shows the normal form of the entry and its tokens,
both as texts.  Either can be entered again.  The normal form is its own normal
form, so it is read the same way.  The tokens are written with spaces between
them, and spaces are dropped, so two of them might grow together; that they do
not is a matter of how they were read:

* a number is read from digits, so it is finite and its sign bit is clear, or it
  is read from digits with a minus sign;
* where an operand is due, a minus sign right before digits belongs to them, so
  a minus sign that became a token of its own is not followed by a number
  without a sign.

Tokens of which this can be said (`Token.Rereadable`) are spelled by what is
written of them if they are those of a phrase (`Phrase.spells_text`), by
induction on the phrase.
-/
import SciCalc.Proofs.Products
import SciCalc.Proofs.Written

namespace SciCalc

set_option autoImplicit false

open SciCalc.Expr (grouped)

namespace Token

open Lexeme

/-! ## What is read -/

/-- A numeral is read as a finite double without a sign. -/
theorem readNumeral_spec {digits : Text} {v : Float} (read : readNumeral digits = .ok v) :
    v.isFinite = true ∧ Binary64.isNegative v = false := by
  unfold readNumeral at read
  split at read
  · cases read
  · split at read
    · rename_i d _ finite
      obtain rfl := Except.ok.inj read
      exact ⟨finite, Binary64.isNegative_nearest _ _⟩
    · cases read

/-- The tokens that a character can be by itself: no number, no negation, and the operator of a
difference only for a minus sign. -/
theorem ofChar_cases {c : Char} {t : Token} (single : ofChar c = .ok (some t)) :
    (∀ v, t ≠ number v) ∧ t ≠ negate ∧ (t = operator .sub → c = '-') := by
  have ofSigns : ∀ p ∈ signs, (∀ v, p.2 ≠ number v) ∧ p.2 ≠ negate ∧
      (p.2 = operator .sub → p.1 = '-') := by simp [signs]
  rcases ofChar_inv single with sign | ⟨rfl, rfl⟩ | ⟨letter, rfl⟩
  · exact ofSigns _ sign
  · simp
  · simp

/-- **A number that stands first** is read from a numeral that stands first, or has its own sign. -/
theorem Lexes.head_number {closed : Bool} {ls : List Lexeme} {ts : List Token} {v : Float}
    (lexes : Lexes closed ls ts) (visible : ∀ c, .char c ∈ ls → isBlank c = false)
    (first : ts.head? = some (number v)) :
    (∃ digits, ls.head? = some (.numeral digits)) ∨ Binary64.isNegative v = true := by
  cases lexes with
  | nil => cases first
  | word w rest => cases first
  | numeral value rest => exact .inl ⟨_, rfl⟩
  | signed value rest =>
      obtain rfl := Token.number.inj (Option.some.inj first)
      obtain ⟨finite, clear⟩ := readNumeral_spec value
      right
      rw [(Binary64.fields_neg (Binary64.isNaN_of_isFinite finite)).1, clear]
      rfl
  | power rest => cases first
  | blank white rest =>
      rw [visible _ (.head _)] at white
      cases white
  | char apart single rest => exact absurd (Option.some.inj first) ((ofChar_cases single).1 v)

/-- A numeral that stands first is read as the number that stands first. -/
theorem Lexes.of_numeral {closed : Bool} {ls : List Lexeme} {ts : List Token} {digits : Text}
    (lexes : Lexes closed ls ts) (first : ls.head? = some (.numeral digits)) :
    ∃ v rest, readNumeral digits = .ok v ∧ ts = number v :: rest := by
  cases lexes with
  | numeral value rest =>
      obtain rfl := Lexeme.numeral.inj (Option.some.inj first)
      exact ⟨_, _, value, rfl⟩
  | _ => cases first

/-! ## Tokens that can be read again -/

/-- Finite numbers, no token of a negation, and where an operand is due no minus sign before a
number without a sign.  `closed` tells whether an operand has just ended. -/
structure Rereadable (closed : Bool) (ts : List Token) : Prop where
  finite : ∀ v, number v ∈ ts → v.isFinite = true
  noNegate : negate ∉ ts
  signs : ∀ before after v, ts = before ++ operator .sub :: number v :: after →
    closedAfter closed before = false → Binary64.isNegative v = true

namespace Rereadable

variable {closed : Bool} {t : Token} {ts us : List Token}

theorem cons (rest : Rereadable t.closesValue ts) (finite : ∀ v, t = number v → v.isFinite = true)
    (noNegate : t ≠ negate)
    (sign : closed = false → t = operator .sub → ∀ v, ts.head? = some (number v) →
      Binary64.isNegative v = true) :
    Rereadable closed (t :: ts) where
  finite := fun v member => by
    rcases List.mem_cons.1 member with same | member
    · exact finite v same.symm
    · exact rest.finite v member
  noNegate := fun member => by
    rcases List.mem_cons.1 member with same | member
    · exact noNegate same.symm
    · exact rest.noNegate member
  signs := fun before after v found due => by
    cases before with
    | nil =>
        obtain ⟨isSub, follows⟩ := List.cons.inj found
        exact sign due isSub v (by rw [follows]; rfl)
    | cons u before =>
        obtain ⟨rfl, follows⟩ := List.cons.inj found
        exact rest.signs before after v follows due

/-- A first part can be read again. -/
theorem left (again : Rereadable closed (ts ++ us)) : Rereadable closed ts where
  finite := fun v member => again.finite v (List.mem_append_left us member)
  noNegate := fun member => again.noNegate (List.mem_append_left us member)
  signs := fun before after v found due => by
    refine again.signs before (after ++ us) v ?_ due
    rw [found, List.append_assoc]
    rfl

/-- What follows a first part can be read again where the first part ends. -/
theorem right (again : Rereadable closed (ts ++ us)) : Rereadable (closedAfter closed ts) us where
  finite := fun v member => again.finite v (List.mem_append_right ts member)
  noNegate := fun member => again.noNegate (List.mem_append_right ts member)
  signs := fun before after v found due => by
    refine again.signs (ts ++ before) after v ?_ ?_
    · rw [found, List.append_assoc]
    · rw [closedAfter_append]
      exact due

theorem tail (again : Rereadable closed (t :: ts)) : Rereadable t.closesValue ts := by
  have parts : Rereadable closed ([t] ++ ts) := again
  exact parts.right

end Rereadable

/-- **What is read can be read again.** -/
theorem Lexes.rereadable {closed : Bool} {ls : List Lexeme} {ts : List Token}
    (lexes : Lexes closed ls ts) (visible : ∀ c, .char c ∈ ls → isBlank c = false) :
    Rereadable closed ts := by
  induction lexes with
  | nil closed =>
      refine ⟨nofun, nofun, fun before after v found _ => ?_⟩
      cases before <;> cases found
  | @word closed w ls ts rest ih =>
      have goesOn : Rereadable (name (w.map Char.toLower)).closesValue ts :=
        ih fun c member => visible c (.tail _ member)
      exact goesOn.cons nofun nofun nofun
  | @numeral closed d v ls ts value rest ih =>
      have goesOn : Rereadable (number v).closesValue ts :=
        ih fun c member => visible c (.tail _ member)
      refine goesOn.cons (fun u same => ?_) nofun nofun
      obtain rfl := Token.number.inj same
      exact (readNumeral_spec value).1
  | @signed d v ls ts value rest ih =>
      have goesOn : Rereadable (number (-v)).closesValue ts :=
        ih fun c member => visible c (.tail _ (.tail _ member))
      refine goesOn.cons (fun u same => ?_) nofun nofun
      obtain rfl := Token.number.inj same
      exact Binary64.isFinite_neg (readNumeral_spec value).1
  | @power closed ls ts rest ih =>
      have goesOn : Rereadable (operator .pow).closesValue ts :=
        ih fun c member => visible c (.tail _ (.tail _ member))
      exact goesOn.cons nofun nofun nofun
  | blank white rest ih =>
      rw [visible _ (.head _)] at white
      cases white
  | @char closed c t ls ts apart single rest ih =>
      obtain ⟨noNumber, noNegate, isMinus⟩ := ofChar_cases single
      have shown : ∀ c, .char c ∈ ls → isBlank c = false :=
        fun c member => visible c (.tail _ member)
      refine (ih shown).cons (fun v same => absurd same (noNumber v)) noNegate ?_
      intro due isSub v first
      rcases rest.head_number shown first with ⟨digits, numeral⟩ | negative
      · -- digits right after the sign would have been read together with it
        obtain rfl := isMinus isSub
        rcases apart with apart | ⟨closed, -⟩
        · cases apart _ rfl _ numeral
        · rw [due] at closed
          cases closed
      · exact negative

/-- The tokens of a normal form can be read again. -/
theorem rereadable_of_read {entry : Text} {ts : List Token}
    (done : read (normalize entry) = .ok ts) : Rereadable false ts :=
  (lexes_of_read done).rereadable fun _ member =>
    (drawn_split (normal_normalize entry).kept _ member).visible

/-! ## What is written -/

/-- The spaces between written tokens are all the white space there is. -/
theorem withoutBlanks_listText (ts : List Token) :
    (listText ts).withoutBlanks = Text.withoutBlanks (ts.flatMap text) := by
  induction ts with
  | nil => rfl
  | cons t ts ih =>
      cases ts with
      | nil => rw [listText_singleton, List.flatMap_cons, List.flatMap_nil, List.append_nil]
      | cons u ts =>
          have joined : listText (t :: u :: ts) = t.text ++ [' '] ++ listText (u :: ts) := rfl
          rw [joined, List.flatMap_cons, Text.withoutBlanks_append, Text.withoutBlanks_append,
            Text.withoutBlanks_append, ih]
          simp [Text.withoutBlanks, show isBlank ' ' = true from rfl]

end Token

/-! ## The tokens of a phrase -/

/-- **The written tokens of a phrase spell it** if they can be read again. -/
theorem Phrase.spells_text {c : Category} (x : Phrase c)
    (again : Token.Rereadable false x.tokens) : Spells (x.tokens.flatMap Token.text) x := by
  induction x with
  | number v =>
      have finite := again.finite v (List.mem_singleton_self _)
      rw [tokens, List.flatMap_cons, List.flatMap_nil, List.append_nil]
      exact Spells.number finite
  | group x ih =>
      have inner := ih again.tail.left
      have written : (group x).tokens.flatMap Token.text =
          grouped (x.tokens.flatMap Token.text) := by
        simp [tokens, grouped, Token.text]
      rw [written]
      exact inner.group
  | call f x ih =>
      have inner := ih again.tail.tail.left
      have written : (call f x).tokens.flatMap Token.text =
          f.name ++ grouped (x.tokens.flatMap Token.text) := by
        simp [tokens, grouped, Token.text]
      rw [written]
      exact inner.call f
  | factorial x ih =>
      have inner := ih again.left
      have written : (factorial x).tokens.flatMap Token.text =
          x.tokens.flatMap Token.text ++ ['!'] := by
        simp [tokens, Token.text]
      rw [written]
      exact inner.factorial
  | minus x ih =>
      have inner := ih again.tail
      have noNumeral (digits : Text) :
          (Lexeme.split (normalize (x.tokens.flatMap Token.text))).head? ≠
            some (.numeral digits) := by
        intro first
        obtain ⟨v, after, value, found⟩ := inner.lexes.of_numeral first
        have sign := again.signs [] after v (by rw [tokens, found]; rfl) rfl
        rw [(Token.readNumeral_spec value).2] at sign
        cases sign
      have written : (minus x).tokens.flatMap Token.text = '-' :: x.tokens.flatMap Token.text := by
        simp [tokens, Token.text, Operator.sign]
      rw [written]
      exact inner.minus noNumeral
  | negate x ih => exact absurd (List.mem_cons_self ..) again.noNegate
  | binary o x y ihx ihy =>
      have first := ihx again.left
      have second := ihy again.right.tail
      have written : (binary o x y).tokens.flatMap Token.text =
          x.tokens.flatMap Token.text ++ [o.sign] ++ y.tokens.flatMap Token.text := by
        simp [tokens, Token.text]
      rw [written]
      exact first.spelled o.sign_mem_spellings second
  | ofPrimary x ih | ofSuffixed x ih | ofUnary x ih | ofPower x ih | ofProduct x ih =>
      exact (ih again).of_tokens rfl

/-! ## The record -/

namespace Settings

/-- An entry of the same tokens is read the same way. -/
theorem read_of_tokens {s : Settings} {entry other : Text} {r : Reading}
    (done : s.read entry = .ok r) (same : Token.read (normalize other) = .ok r.tokens) :
    s.read other = .ok { r with normalized := normalize other } := by
  obtain ⟨-, -, later⟩ := read_eq_ok_iff.1 done
  exact read_eq_ok_iff.2 ⟨rfl, same, later⟩

theorem evaluate_eq_ok_iff {lib : Elementary} {s : Settings} {entry : Text} {v : Float}
    {w : Working} :
    s.evaluate lib entry = .ok (v, w) ↔
      ∃ r, s.read entry = .ok r ∧ r.tree.value lib s.mode = .ok v ∧ w = r.working s.mode := by
  constructor
  · intro done
    obtain ⟨r, read, done⟩ := Token.bind_eq_ok done
    obtain ⟨u, value, done⟩ := Token.bind_eq_ok done
    obtain ⟨rfl, rfl⟩ := Prod.mk.inj (Except.ok.inj done)
    exact ⟨r, read, value, rfl⟩
  · rintro ⟨r, read, value, rfl⟩
    rw [evaluate, read]
    show (r.tree.value lib s.mode >>= _) = _
    rw [value]
    rfl

/-- Where there is a value there is a record. -/
theorem exists_working {lib : Elementary} {s : Settings} {entry : Text} {v : Float}
    (done : s.valueOf lib entry = .ok v) : ∃ w, s.evaluate lib entry = .ok (v, w) := by
  rw [valueOf] at done
  cases result : s.evaluate lib entry with
  | error fault =>
      rw [result] at done
      cases done
  | ok both =>
      rw [result] at done
      obtain rfl := Except.ok.inj done
      exact ⟨both.2, rfl⟩

/-- The written tokens of an entry are read as the tokens of the entry. -/
theorem read_listText {s : Settings} {entry : Text} {r : Reading} (done : s.read entry = .ok r) :
    Token.read (normalize (Token.listText r.tokens)) = .ok r.tokens := by
  obtain ⟨d, spells, same, -⟩ := exists_phrase_of_read done
  have again := Token.rereadable_of_read spells
  have written := (d.spells_text again).congr (Token.withoutBlanks_listText d.tokens).symm
  rw [← same]
  exact written

/-- **The record of an evaluation is evaluated to itself.**  Its normal form and its tokens, entered
again under the same settings, have the same value and the same record; only the normal form of the
written tokens is that of another entry. -/
theorem evaluate_working (lib : Elementary) (s : Settings) (entry : Text) (v : Float) (w : Working)
    (done : s.evaluate lib entry = .ok (v, w)) :
    s.evaluate lib w.normalized = .ok (v, w) ∧
      s.evaluate lib w.tokens = .ok (v, { w with normalized := normalize w.tokens }) := by
  obtain ⟨r, read, value, rfl⟩ := evaluate_eq_ok_iff.1 done
  obtain ⟨normalized, tokens, -⟩ := read_eq_ok_iff.1 read
  constructor
  · have fixed : normalize r.normalized = r.normalized := by
      rw [normalized]
      exact (normal_normalize entry).normalize_eq
    have same : Token.read (normalize r.normalized) = .ok r.tokens := by rw [fixed, tokens]
    have again := read_of_tokens read same
    rw [fixed] at again
    exact evaluate_eq_ok_iff.2 ⟨r, again, value, rfl⟩
  · have again := read_of_tokens read (read_listText read)
    exact evaluate_eq_ok_iff.2 ⟨_, again, value, rfl⟩

/-- The entry `2--3π`: in its tokens `2 - -3 * 3.141592653589793` one minus sign is an operator and
one belongs to a number. -/
theorem evaluate_working_signs :
    let v : Float := 11.42477796076938
    let w : Working :=
      { normalized := "2--3*3.141592653589793", tokens := "2 - -3 * 3.141592653589793",
        postfixList := "2 -3 3.141592653589793 * -",
        tree := "(2 - ((-3) * 3.141592653589793))", note := Working.noteFor .degrees }
    evaluate .machine {} "2--3π" = .ok (v, w) ∧
      evaluate .machine {} "2--3*3.141592653589793" = .ok (v, w) ∧
      evaluate .machine {} "2 - -3 * 3.141592653589793" = .ok (v, w) := by
  intro v w
  have done : evaluate .machine {} "2--3π" = .ok (v, w) := by decide +kernel
  have fixed : normalize w.tokens = w.normalized := by decide
  obtain ⟨normalized, tokens⟩ := evaluate_working .machine {} "2--3π" v w done
  rw [fixed] at tokens
  exact ⟨done, normalized, tokens⟩

end Settings

end SciCalc
