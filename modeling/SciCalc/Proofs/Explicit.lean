/-
# SciCalc.Proofs.Explicit -- an entry that already reads is kept as it is

An entry without white space whose tokens are those of a phrase has a normal form
with the same tokens: the entry itself in small letters, with the name of the
square root for each root sign (`Text.lettered`).

That form is a normal one (`Explicit.normal`).  No two of its lexemes are
factors side by side, because no operand follows another in a phrase
(`Phrase.isChain_detached`) and lexemes end and begin operands as their tokens do
(`Token.Lexes.detached`); and a word in it is the name of a function with a
parenthesis right after it (`Phrase.exists_func_of_word`), so it is no constant
and has no numeral beside it.  Nor does a root sign owe a parenthesis, since a
group is open right after it (`Piece.wrapFrom_lettered`).
-/
import SciCalc.Proofs.Products
import SciCalc.Proofs.Token.Faults

namespace SciCalc

set_option autoImplicit false

/-- A text in small letters, with the name of the square root for each of its signs. -/
def Text.lettered (t : Text) : Text :=
  t.flatMap fun c => if c = '√' then Func.sqrt.name else [c.toLower]

/-! ## Lexemes in letters -/

namespace Lexeme

/-- A lexeme in small letters, a root sign as the name of the square root. -/
def lettered : Lexeme → Lexeme
  | word w => word (w.map Char.toLower)
  | numeral d => numeral d
  | char c => if c = '√' then word Func.sqrt.name else char c

theorem lettered_char {c : Char} (noRoot : c ≠ '√') : (char c).lettered = char c := if_neg noRoot

theorem eq_char_of_lettered {l : Lexeme} {c : Char} (same : l.lettered = char c) : l = char c := by
  cases l with
  | char d =>
      by_cases root : d = '√'
      · rw [root] at same
        cases same
      · exact (lettered_char root).symm.trans same
  | _ => cases same

theorem eq_numeral_of_lettered {l : Lexeme} {d : Text} (same : l.lettered = numeral d) :
    l = numeral d := by
  cases l with
  | word w => cases same
  | numeral e => exact same
  | char c =>
      by_cases root : c = '√'
      · rw [root] at same
        cases same
      · rw [lettered_char root] at same
        cases same

/-- The letters of a lexeme of a text. -/
theorem text_lettered {l : Lexeme} (drawn : l.Drawn fun _ => True)
    (alone : ∀ c, l = char c → standsAlone c = true) : l.lettered.text = l.text.lettered := by
  have plain {t : Text} (noRoot : ∀ c ∈ t, c ≠ '√') : t.lettered = t.map Char.toLower := by
    rw [List.map_eq_flatMap]
    exact List.flatMap_congr fun c member => if_neg (noRoot c member)
  cases l with
  | word w =>
      refine (plain fun c member => ?_).symm
      rintro rfl
      cases (drawn.2 _ member).2
  | numeral d =>
      have noRoot : ∀ c ∈ d, c ≠ '√' := by
        rintro c member rfl
        cases (drawn.2 _ member).2
      rw [text, plain noRoot]
      exact (map_toLower_of_kept fun c member => kept_of_isNumeral (drawn.2 c member).2).symm
  | char c =>
      have small := toLower_of_not_isAlpha (standsAlone_iff.1 (alone c rfl)).1
      by_cases root : c = '√'
      · rw [root]
        rfl
      · rw [lettered_char root]
        simp [text, Text.lettered, root, small]

theorem spell_map_lettered (t : Text) : spell ((split t).map lettered) = t.lettered := by
  have whole := congrArg Text.lettered (spell_split t)
  rw [← whole, spell, spell, Text.lettered, List.flatMap_map, List.flatMap_assoc]
  refine List.flatMap_congr fun l member => text_lettered (drawn_of_mem_split member) ?_
  rintro c rfl
  exact standsAlone_of_mem_split member

end Lexeme

namespace Token

open Lexeme

/-- **Lexemes in letters are read as the lexemes are.** -/
theorem Lexes.lettered {closed : Bool} {ls : List Lexeme} {ts : List Token}
    (lexes : Lexes closed ls ts) : Lexes closed (ls.map Lexeme.lettered) ts := by
  induction lexes with
  | nil closed => exact .nil closed
  | @word closed w ls ts rest ih =>
      have again : (w.map Char.toLower).map Char.toLower = w.map Char.toLower := by simp
      rw [← again]
      exact .word _ ih
  | numeral value rest ih => exact .numeral value ih
  | signed value rest ih => exact .signed value ih
  | power rest ih => exact .power ih
  | @blank closed c ls ts white rest ih =>
      have noRoot : c ≠ '√' := by
        rintro rfl
        cases white
      rw [List.map_cons, lettered_char noRoot]
      exact .blank white ih
  | @char closed c t ls ts apart single rest ih =>
      by_cases root : c = '√'
      · rw [root] at single
        obtain rfl := Option.some.inj (Except.ok.inj single)
        rw [List.map_cons, root]
        exact .word Func.sqrt.name ih
      · rw [List.map_cons, lettered_char root]
        refine .char (apart.imp_left fun apart => apart_of_not_fused ?_ ?_) single ih
        · rintro digits more shape rfl
          obtain ⟨l, others, rfl, same, -⟩ := List.map_eq_cons_iff.1 shape
          rw [eq_numeral_of_lettered same] at apart
          cases apart _ rfl _ rfl
        · rintro more shape rfl
          obtain ⟨l, others, rfl, same, -⟩ := List.map_eq_cons_iff.1 shape
          rw [eq_char_of_lettered same] at apart
          cases apart _ rfl _ rfl

/-! ## Operands side by side -/

/-- **Detached tokens are read from detached lexemes.** -/
theorem Lexes.detached {closed : Bool} {ls : List Lexeme} {ts : List Token}
    (lexes : Lexes closed ls ts) (shown : ∀ c, .char c ∈ ls → isBlank c = false ∧ c ≠ '√')
    (detached : ts.IsChain Detached)
    (first : closed = true → ∀ t ∈ ts.head?, t.opensValue = false) :
    ls.IsChain Lexeme.Detached ∧ (closed = true → ∀ l ∈ ls.head?, l.side.begins = false) := by
  induction lexes with
  | nil closed => exact ⟨.nil, fun _ _ => nofun⟩
  | @word closed w ls ts rest ih =>
      have others := ih (fun c member => shown c (.tail _ member)) detached.tail nofun
      refine ⟨others.1.cons fun m _ ends => ?_, fun closed => ?_⟩
      · cases ends
      · cases first closed _ rfl
  | @numeral closed d v ls ts value rest ih =>
      have others := ih (fun c member => shown c (.tail _ member)) detached.tail
        fun _ t next => detached.rel_head? next rfl
      refine ⟨others.1.cons fun m next _ => others.2 rfl m next, fun closed => ?_⟩
      cases first closed _ rfl
  | @signed d v ls ts value rest ih =>
      have others := ih (fun c member => shown c (.tail _ (.tail _ member))) detached.tail
        fun _ t next => detached.rel_head? next rfl
      refine ⟨(others.1.cons fun m next _ => others.2 rfl m next).cons fun m _ ends => ?_, nofun⟩
      cases ends
  | @power closed ls ts rest ih =>
      have others := ih (fun c member => shown c (.tail _ (.tail _ member))) detached.tail nofun
      refine ⟨(others.1.cons fun m _ ends => ?_).cons fun m _ ends => ?_, fun _ l next => ?_⟩
      · cases ends
      · cases ends
      · obtain rfl := Option.some.inj next
        rfl
  | blank white rest ih =>
      rw [(shown _ (.head _)).1] at white
      cases white
  | @char closed c t ls ts apart single rest ih =>
      obtain ⟨closes, opens, -⟩ := ofChar_spec single (shown c (.head _)).2
      have others := ih (fun c member => shown c (.tail _ member)) detached.tail
        fun closed u next => detached.rel_head? next closed
      refine ⟨others.1.cons fun m next ends => others.2 (closes.trans ends) m next,
        fun closed l next => ?_⟩
      obtain rfl := Option.some.inj next
      exact opens.symm.trans (first closed t rfl)

end Token

/-- No function has a single letter for a name. -/
theorem Func.length_name_ne_one (f : Func) : f.name.length ≠ 1 := by
  cases f <;> decide

namespace Phrase

open Token

/-- **No operand follows another in a phrase.** -/
theorem isChain_detached {c : Category} (d : Phrase c) : d.tokens.IsChain Detached := by
  have close {ts : List Token} {t : Token} (chain : ts.IsChain Detached)
      (noOperand : t.opensValue = false) : (ts ++ [t]).IsChain Detached := by
    refine List.isChain_append.2 ⟨chain, .singleton t, fun a _ b first _ => ?_⟩
    obtain rfl := Option.some.inj first
    exact noOperand
  have enter {ts : List Token} {t : Token} (chain : ts.IsChain Detached)
      (noOperand : t.closesValue = false) : (t :: ts).IsChain Detached := by
    refine chain.cons fun b _ ends => ?_
    rw [noOperand] at ends
    cases ends
  induction d with
  | number v => exact .singleton _
  | group x ih => exact enter (close ih rfl) rfl
  | call f x ih => exact enter (enter (close ih rfl) rfl) rfl
  | factorial x ih => exact close ih rfl
  | minus x ih => exact enter ih rfl
  | negate x ih => exact enter ih rfl
  | binary o x y ihx ihy =>
      rw [tokens, List.append_cons]
      refine List.isChain_append.2 ⟨close ihx rfl, ihy, fun a last b _ ends => ?_⟩
      obtain rfl : Token.operator o = a := by simpa using last
      cases ends
  | ofPrimary x ih | ofSuffixed x ih | ofUnary x ih | ofPower x ih | ofProduct x ih => exact ih

/-- A character among lexemes read as a phrase is no letter. -/
theorem isLetter_eq_false_of_char (d : Phrase .sum) {ls : List Lexeme} {c : Char}
    (lexes : Lexes false ls d.tokens) (member : .char c ∈ ls) (visible : isBlank c = false)
    (noRoot : c ≠ '√') : isLetter c = false := by
  by_contra letter
  rw [Bool.not_eq_false] at letter
  have other {sign : Char} (noLetter : isLetter sign = false) : c ≠ sign := by
    rintro rfl
    rw [letter] at noLetter
    cases noLetter
  have single : ofChar c = .ok (some (name [c])) := by
    unfold ofChar
    rw [if_neg (by simp [visible])]
    split
    case h_10 => exact if_pos letter
    all_goals first | exact absurd rfl noRoot | cases letter
  obtain ⟨before, after, rfl⟩ := List.append_of_mem member
  have noStar : c ≠ '*' := other rfl
  have apart : Lexeme.Apart before (.char c :: after) :=
    Lexeme.apart_of_head (by simp) (by simpa using noStar)
  obtain ⟨us, vs, found, -, rest⟩ := (lexes_append_iff apart).1 lexes
  rw [← ofLexemes_eq_ok_iff, ofLexemes_char_some
    (Lexeme.apart_char (other rfl) noStar after) single] at rest
  obtain ⟨ws, -, rfl⟩ := map_cons_eq_ok rest
  obtain ⟨f, named, -⟩ := d.head_of_name found
  exact f.length_name_ne_one (congrArg List.length named.symm)

end Phrase

/-! ## Root signs before groups -/

namespace Piece

open Lexeme

/-- The pieces of a lexeme in letters are those of the lexeme, but for a root sign. -/
theorem ofLexeme_lettered {l : Lexeme} (noRoot : l ≠ char '√') :
    ofLexeme l.lettered = ofLexeme l ∧ ∀ p ∈ ofLexeme l, p ≠ root := by
  cases l with
  | word w => simp [ofLexeme, lettered]
  | numeral d => simp [ofLexeme, lettered]
  | char c =>
      have other : c ≠ '√' := fun same => noRoot (congrArg char same)
      refine ⟨congrArg ofLexeme (lettered_char other), ?_⟩
      simp only [ofLexeme, ofChar, if_neg other, List.mem_singleton, forall_eq]
      split <;> exact Piece.noConfusion

/-- **Root signs right before groups** become the names of calls, and no parenthesis is added. -/
theorem wrapFrom_lettered {ls : List Lexeme}
    (opens : ∀ after, char '√' :: after <:+ ls → after.head? = some (char '(')) {n : Nesting}
    (nothing : n.owed = []) :
    wrapFrom .plain n (ls.flatMap ofLexeme) = (ls.map lettered).flatMap ofLexeme := by
  induction ls generalizing n with
  | nil => rfl
  | cons l ls ih =>
      have others {m : Nesting} (nothing : m.owed = []) :=
        ih (fun after ends => opens after (ends.trans (List.suffix_cons l ls))) nothing
      rw [List.map_cons, List.flatMap_cons, List.flatMap_cons]
      by_cases isRoot : l = char '√'
      · subst isRoot
        -- the sign is written as a name, and the group after it is entered either way
        obtain ⟨after, rfl⟩ := List.head?_eq_some_iff.1 (opens ls (List.suffix_refl _))
        have group := others nothing
        have enters : wrapFrom .plain n (opening :: after.flatMap ofLexeme) =
            opening :: wrapFrom .plain n.enter (after.flatMap ofLexeme) := by
          rw [wrapFrom, if_neg (by decide), settle_of_ne (by decide), after_opening]
          rfl
        have shape : (char '(' :: after).flatMap ofLexeme = opening :: after.flatMap ofLexeme := rfl
        rw [← group, shape, enters]
        exact wrapFrom_roots_opening 0 n _
      · obtain ⟨same, noRoot⟩ := ofLexeme_lettered isRoot
        obtain ⟨m, still, whole⟩ := wrapFrom_append_of_no_root noRoot nothing (ls.flatMap ofLexeme)
        rw [whole, others still, same]

end Piece

/-! ## Entries that already read -/

/-- No admitted character stands for another one. -/
theorem Text.plainSign_of_admitted {c : Char} (admitted : Text.Admitted c) :
    Piece.plainSign c = c := by
  have other {sign : Char} (refused : ¬ Text.Admitted sign) : c ≠ sign := by
    rintro rfl
    exact refused admitted
  rw [Piece.plainSign, if_neg (other (by decide +kernel)), if_neg (other (by decide +kernel)),
    if_neg (other (by decide +kernel))]

/-- Neighbours of which only the second can begin an operand, and a letter only before a group. -/
theorem Side.joins_eq_false {a b : Side} (detached : a.ends = true → b.begins = false)
    (named : a = letter → b = opens) : a.joins b = false := by
  revert detached named
  cases a <;> cases b <;> decide

/-- A text without white space that reads as a phrase. -/
structure Explicit (t : Text) (d : Phrase .sum) : Prop where
  solid : ∀ c ∈ t, isBlank c = false
  done : Token.read t = .ok d.tokens

namespace Explicit

open Lexeme

variable {t : Text} {d : Phrase .sum}

theorem lexes (explicit : Explicit t d) : Token.Lexes false ((split t).map lettered) d.tokens :=
  (Token.lexes_of_read explicit.done).lettered

/-- The characters are visible and mean themselves. -/
theorem clear (explicit : Explicit t d) : ∀ c ∈ t, isBlank c = false ∧ Piece.plainSign c = c := by
  have admitted := (Text.forall_not_offends_iff.1 (Token.exists_read_iff.1 ⟨_, explicit.done⟩)).1
  exact fun c member => ⟨explicit.solid c member, Text.plainSign_of_admitted (admitted c member)⟩

/-- **The lexemes in letters are kept.** -/
theorem drawn_lettered (explicit : Explicit t d) :
    ∀ l ∈ (split t).map lettered, l.Drawn Kept := by
  intro l member
  obtain ⟨source, among, rfl⟩ := List.mem_map.1 member
  have drawn := drawn_split explicit.clear source among
  cases source with
  | word w =>
      refine ⟨by simpa using drawn.1, fun c inside => ?_⟩
      obtain ⟨b, letter, rfl⟩ := List.mem_map.1 inside
      have isLetter := isAlpha_toLower (drawn.2 b letter).2
      exact ⟨kept_of_isAlpha isLetter (Char.toLower_toLower_eq_toLower b), isLetter⟩
  | numeral e =>
      exact ⟨drawn.1, fun c digit => ⟨kept_of_isNumeral (drawn.2 c digit).2, (drawn.2 c digit).2⟩⟩
  | char c =>
      by_cases root : c = '√'
      · rw [root]
        have letters := Func.sqrt.name_letters
        exact ⟨letters.1, fun c letter => ⟨Piece.wellFormed_sqrt.kept c letter, letters.2 c letter⟩⟩
      · rw [lettered_char root] at member ⊢
        have noLetter := d.isLetter_eq_false_of_char explicit.lexes member drawn.1 root
        refine ⟨drawn.1, drawn.2, root, ?_, ?_⟩
        · rintro rfl
          cases noLetter
        · exact toLower_of_not_isAlpha (isAlpha_eq_false_of_not_isLetter noLetter)

/-- **A word in letters is the name of a function before a parenthesis.** -/
theorem exists_func (explicit : Explicit t d) {before rest : List Lexeme} {w : Text}
    (found : (split t).map lettered = before ++ word w :: rest) :
    ∃ f : Func, w = f.name ∧ rest.head? = some (char '(') := by
  have drawn := explicit.drawn_lettered
  have lexes := explicit.lexes
  rw [found] at drawn lexes
  obtain ⟨f, after, named, lexes, opens⟩ := d.exists_func_of_word lexes
  have kept : (word w).Drawn Kept := drawn _ (by simp)
  rw [map_toLower_of_kept fun c letter => (kept.2 c letter).1] at named
  refine ⟨f, named, Phrase.head_of_openGroup lexes opens fun c begins => ?_⟩
  have visible : (char c).Drawn Kept := drawn _ (by simp [List.mem_of_mem_head? begins])
  exact visible.visible

/-- **The lexemes in letters are those of the text in letters.** -/
theorem split_lettered (explicit : Explicit t d) :
    split t.lettered = (split t).map lettered := by
  rw [← spell_map_lettered]
  refine split_spell (fun l member => (explicit.drawn_lettered l member).mono fun _ _ => trivial)
    ?_ ?_
  · intro c member
    obtain ⟨l, among, same⟩ := List.mem_map.1 member
    rw [eq_char_of_lettered same] at among
    exact standsAlone_of_mem_split among
  · rw [List.isChain_map, List.isChain_iff_forall_rel_of_append_cons_cons]
    intro a b before rest found
    cases first : a.lettered with
    | word w =>
        have whole : (split t).map lettered =
            before.map lettered ++ word w :: (b :: rest).map lettered := by simp [found, first]
        obtain ⟨f, -, opens⟩ := explicit.exists_func whole
        rw [← Option.some.inj opens.symm]
        rfl
    | numeral e =>
        cases second : b.lettered with
        | numeral e' =>
            have unlike := List.isChain_iff_forall_rel_of_append_cons_cons.1 (isChain_split t) found
            rw [eq_numeral_of_lettered first, eq_numeral_of_lettered second] at unlike
            cases unlike
        | _ => rfl
    | char c => rfl

/-- **No two lexemes in letters are factors side by side.** -/
theorem joins_eq_false (explicit : Explicit t d) {a b : Lexeme} {before rest : List Lexeme}
    (found : (split t).map lettered = before ++ a :: b :: rest) : a.side.joins b.side = false := by
  have detached : ((split t).map lettered).IsChain Detached := by
    refine (explicit.lexes.detached (fun c member => ?_) d.isChain_detached nofun).1
    have kept : (char c).Drawn Kept := explicit.drawn_lettered _ member
    exact ⟨kept.visible, kept.noRoot⟩
  refine Side.joins_eq_false
    (List.isChain_iff_forall_rel_of_append_cons_cons.1 detached found) fun letter => ?_
  cases a with
  | word w =>
      obtain ⟨f, -, opens⟩ := explicit.exists_func found
      rw [Option.some.inj opens]
      rfl
  | numeral e => cases letter
  | char c =>
      have member : char c ∈ (split t).map lettered := by simp [found]
      have kept : (char c).Drawn Kept := explicit.drawn_lettered _ member
      have noLetter := d.isLetter_eq_false_of_char explicit.lexes member kept.visible kept.noRoot
      simp only [side, Side.ofChar, noLetter, Bool.false_eq_true, if_false] at letter
      repeat' split at letter
      all_goals cases letter

/-- **The text in letters is normal.** -/
theorem normal (explicit : Explicit t d) : t.lettered.Normal := by
  refine ⟨fun c member => ?_, isChain_unjoined ?_, fun w member => ?_⟩
  · rw [← spell_map_lettered] at member
    obtain ⟨l, among, inside⟩ := List.mem_flatMap.1 member
    exact (explicit.drawn_lettered l among).of_mem inside
  · rw [explicit.split_lettered, List.isChain_iff_forall_rel_of_append_cons_cons]
    exact fun a b before rest found => explicit.joins_eq_false found
  · rw [explicit.split_lettered] at member
    obtain ⟨before, rest, found⟩ := List.append_of_mem member
    obtain ⟨f, rfl, -⟩ := explicit.exists_func found
    cases f <;> rfl

/-- Its pieces are the pieces of the text with the root signs written as names. -/
theorem wrapRoots_cut (explicit : Explicit t d) :
    Piece.wrapRoots (Piece.cut t) = Piece.cut t.lettered := by
  rw [explicit.normal.cut_eq, explicit.split_lettered, Piece.cut, shown_of_clear explicit.clear]
  refine Piece.wrapFrom_lettered ?_ rfl
  rintro after ⟨before, found⟩
  have whole : (split t).map lettered =
      before.map lettered ++ word Func.sqrt.name :: after.map lettered := by
    rw [← found, List.map_append]
    rfl
  obtain ⟨f, -, opens⟩ := explicit.exists_func whole
  rw [List.head?_map, Option.map_eq_some_iff] at opens
  obtain ⟨l, first, same⟩ := opens
  rw [first, eq_char_of_lettered same]

end Explicit

/-- **Normalization leaves an explicit entry alone.**  Where an entry without white space already
reads as a complete expression, its normal form has the same tokens: it is the entry itself in small
letters with the name of the square root for each root sign. -/
theorem normalize_of_complete (t : Text) (ts listed : List Token) (maxNesting : Nat)
    (solid : ∀ c ∈ t, isBlank c = false) (done : Token.read t = .ok ts)
    (complete : Postfix.ofTokens maxNesting ts = .ok listed) :
    Token.read (normalize t) = .ok ts ∧ normalize t = t.lettered := by
  obtain ⟨d, rfl, -, -⟩ := Postfix.ofTokens_eq_ok_iff.1 complete
  have explicit : Explicit t d := ⟨solid, done⟩
  have kept : normalize t = t.lettered := by
    rw [normalize, explicit.wrapRoots_cut, explicit.normal.write_cut]
  refine ⟨?_, kept⟩
  rw [kept, Token.read, explicit.split_lettered]
  exact explicit.lexes.read

/-- The tokens of `-Sin(2)-√(-3)!`. -/
theorem normalize_of_complete_signs :
    let t : Text := "-Sin(2)-√(-3)!"
    let ts : List Token := [.operator .sub, .name Func.sin.name, .openGroup, .number 2, .closeGroup,
      .operator .sub, .name Func.sqrt.name, .openGroup, .number (-3), .closeGroup, .factorial]
    let listed : List Token := [.number 2, .name Func.sin.name, .negate, .number (-3),
      .name Func.sqrt.name, .factorial, .operator .sub]
    (∀ c ∈ t, isBlank c = false) ∧ Token.read t = .ok ts ∧ Postfix.ofTokens 1 ts = .ok listed ∧
      Token.read (normalize t) = .ok ts ∧ normalize t = "-sin(2)-sqrt(-3)!".toList := by
  intro t ts listed
  have solid : ∀ c ∈ t, isBlank c = false := Piece.visible_of_all rfl
  have done : Token.read t = .ok ts := rfl
  have complete : Postfix.ofTokens 1 ts = .ok listed := rfl
  obtain ⟨same, kept⟩ := normalize_of_complete t ts listed 1 solid done complete
  exact ⟨solid, done, complete, same, kept⟩

end SciCalc
