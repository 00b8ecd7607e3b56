/-
# SciCalc.Proofs.Token.Faults -- the lexical grammar and the fault that is reported

A text has tokens exactly if every character is `Text.Admitted` and every maximal
run of digits and points is the numeral of a finite double (`Text.IsRun`,
`Text.Readable`).  Where it has none, it is blamed for the leftmost place at which
it fails this, a character or the start of a run (`Text.Offends`,
`Text.Leftmost`).

How a lexeme is read hangs on its neighbours, but whether it can be read does not:
`Lexeme.fault?` tells it of the lexeme alone, and reading fails with the first
such fault (`Token.ofLexemes_eq_error_iff`).  The lexemes at fault are the places
at which the text offends (`Text.offends_iff`).
-/
import SciCalc.Proofs.Decimal.Numerals
import SciCalc.Proofs.Token.Sides

namespace SciCalc

set_option autoImplicit false

open Lexeme

/-! ## The lexical grammar -/

namespace Text

/-- The characters of expressions: white space, letters, digits, the signs and the point. -/
def Admitted (c : Char) : Prop :=
  isBlank c = true ∨ isLetter c = true ∨ c.isDigit = true ∨ c ∈ "()+-*/^!.√".toList

instance (c : Char) : Decidable (Admitted c) :=
  inferInstanceAs (Decidable (_ ∨ _ ∨ _ ∨ _))

/-- Digits and points of a text, between what stands before and after them, that go on on neither
side. -/
structure IsRun (t before digits after : Text) : Prop where
  whole : t = before ++ (digits ++ after)
  some : digits ≠ []
  inside : ∀ c ∈ digits, Decimal.isNumeral c = true
  begins : ∀ c ∈ before.getLast?, Decimal.isNumeral c = false
  ends : ∀ c ∈ after.head?, Decimal.isNumeral c = false

/-- The numerals of finite doubles. -/
def Readable (digits : Text) : Prop := ∃ d, Decimal.Denotes digits d ∧ d.toFloat.isFinite = true

/-- A fault of a text, after the part of the text before its place: an ASCII sign or another
character that is not admitted, or a run that is not the numeral of a finite double. -/
inductive Offends (t : Text) : Text → Fault → Prop
  | sign {before after : Text} {c : Char} (whole : t = before ++ c :: after)
      (refused : ¬ Admitted c) (isSign : Token.isSign c = true) :
      Offends t before (.unsupported (.character c))
  | character {before after : Text} {c : Char} (whole : t = before ++ c :: after)
      (refused : ¬ Admitted c) (noSign : Token.isSign c = false) :
      Offends t before (.malformed (.unexpectedCharacter c))
  | run {before digits after : Text} (run : IsRun t before digits after)
      (refused : ¬ Readable digits) : Offends t before (.malformed (.invalidNumber digits))

/-- A fault with none to the left of it. -/
structure Leftmost (t before : Text) (fault : Fault) : Prop where
  offends : Offends t before fault
  first : ∀ before' fault', Offends t before' fault' → before.length ≤ before'.length

end Text

open Text (Admitted IsRun Readable Offends Leftmost)

/-! ## Lexemes at fault -/

namespace Lexeme

/-- The fault of a lexeme that cannot be read. -/
def fault? : Lexeme → Option Fault
  | word _ => none
  | numeral d =>
    match Token.readNumeral d with
    | .error fault => some fault
    | .ok _ => none
  | char c =>
    match Token.ofChar c with
    | .error fault => some fault
    | .ok _ => none

/-- A run of digits and points is at fault if it is not the numeral of a finite double. -/
theorem fault?_numeral_iff {d : Text} {fault : Fault} :
    (numeral d).fault? = some fault ↔
      ¬ Readable d ∧ fault = .malformed (.invalidNumber d) := by
  have readable : Readable d ↔ ∃ x, Decimal.ofNumeral? d = some x ∧ x.toFloat.isFinite = true := by
    simp only [Readable, Decimal.ofNumeral?_eq_some_iff]
  rw [readable, fault?, Token.readNumeral, @eq_comm _ fault]
  cases Decimal.ofNumeral? d with
  | none => simp
  | some x => cases finite : x.toFloat.isFinite <;> simp [finite]

/-- A character by itself is at fault if it is not admitted. -/
theorem fault?_char_iff {c : Char} (alone : standsAlone c = true) {fault : Fault} :
    (char c).fault? = some fault ↔
      ¬ Admitted c ∧ fault = if Token.isSign c then .unsupported (.character c)
        else .malformed (.unexpectedCharacter c) := by
  obtain ⟨-, noNumeral⟩ := standsAlone_iff.1 alone
  have noDigit : c.isDigit = false := by
    rw [Decimal.isNumeral, Bool.or_eq_false_iff] at noNumeral
    exact noNumeral.1
  have noPoint : c ≠ '.' := by
    rintro rfl
    cases noNumeral
  have read : (char c).fault? = some fault ↔ Token.ofChar c = .error fault := by
    rw [fault?]
    cases Token.ofChar c <;> simp
  rw [read, @eq_comm _ fault]
  unfold Token.ofChar
  split
  · rename_i blank
    simp [Admitted, blank]
  · rename_i visible
    split
    case h_10 =>
      split
      · rename_i letter
        simp [Admitted, letter]
      · rename_i noLetter
        split <;> simp_all [Admitted]
    all_goals simp [Admitted]

/-- Only characters that stand alone are not admitted. -/
theorem standsAlone_of_not_admitted {c : Char} (refused : ¬ Admitted c) : standsAlone c = true := by
  rw [standsAlone_iff]
  constructor
  · by_contra letter
    exact refused (.inr (.inl (isLetter_of_isAlpha (by simpa using letter))))
  · by_contra numeral
    rw [Bool.not_eq_false, Decimal.isNumeral, Bool.or_eq_true, beq_iff_eq] at numeral
    rcases numeral with digit | rfl
    · exact refused (.inr (.inr (.inl digit)))
    · exact refused (.inr (.inr (.inr (by decide))))

end Lexeme

namespace Token

theorem map_eq_error_iff {α β : Type} {read : Except Fault α} {f : α → β} {fault : Fault} :
    read.map f = .error fault ↔ read = .error fault := by
  cases read <;> simp [Except.map]

/-- Reading a numeral and going on fails with the fault of the numeral or else with that of the
rest. -/
theorem bind_readNumeral_eq_error_iff {α β : Type} {d : Text} {next : Except Fault α}
    {f : Float → α → β} {fault : Fault} :
    ((readNumeral d).bind fun v => next.map (f v)) = .error fault ↔
      (numeral d).fault? = some fault ∨ (numeral d).fault? = none ∧ next = .error fault := by
  rw [Lexeme.fault?]
  cases readNumeral d with
  | error fault' => simp [Except.bind]
  | ok v => simp [Except.bind, map_eq_error_iff]

/-- The first fault of lexemes is that of the first one or else the first of the others. -/
theorem findSome?_fault?_cons {l : Lexeme} {ls : List Lexeme} {fault : Fault} :
    (l :: ls).findSome? fault? = some fault ↔
      l.fault? = some fault ∨ l.fault? = none ∧ ls.findSome? fault? = some fault := by
  rw [List.findSome?_cons]
  cases l.fault? <;> simp

/-- **Reading fails with the fault of the first lexeme that has one**, whatever stands around it. -/
theorem ofLexemes_eq_error_iff {closed : Bool} {ls : List Lexeme} {fault : Fault} :
    ofLexemes closed ls = .error fault ↔ ls.findSome? fault? = some fault := by
  have sign (ls : List Lexeme) : (char '-' :: ls).findSome? fault? = ls.findSome? fault? := rfl
  have star (ls : List Lexeme) : (char '*' :: ls).findSome? fault? = ls.findSome? fault? := rfl
  induction closed, ls using ofLexemes.induct with
  | case1 closed => simp [ofLexemes]
  | case2 closed w ls ih =>
      rw [ofLexemes_word, map_eq_error_iff]
      exact ih
  | case3 closed d ls ih =>
      rw [ofLexemes_numeral, bind_readNumeral_eq_error_iff, findSome?_fault?_cons]
      exact or_congr_right (and_congr_right fun _ => ih)
  | case4 d ls ih =>
      rw [ofLexemes_minus_numeral, map_eq_error_iff, ofLexemes_numeral,
        bind_readNumeral_eq_error_iff, sign, findSome?_fault?_cons]
      exact or_congr_right (and_congr_right fun _ => ih)
  | case5 closed d ls notClosed ih =>
      obtain rfl : closed = false := by simpa using notClosed
      rw [ofLexemes_sign_numeral, bind_readNumeral_eq_error_iff, sign, findSome?_fault?_cons]
      exact or_congr_right (and_congr_right fun _ => ih)
  | case6 closed ls ih =>
      rw [ofLexemes_power, map_eq_error_iff, star, star]
      exact ih
  | case7 closed c ls noNumeral noStar ihBlank ihToken =>
      rw [ofLexemes_char (apart_of_not_fused noNumeral noStar), List.findSome?_cons, Lexeme.fault?]
      cases ofChar c with
      | error fault' => simp [Except.bind]
      | ok t =>
          rw [ok_bind]
          cases t with
          | none => exact ihBlank
          | some t => exact map_eq_error_iff.trans (ihToken t)

end Token

/-! ## Places -/

namespace Lexeme

/-- A run is a lexeme of the text. -/
theorem split_of_isRun {t before digits after : Text} (run : IsRun t before digits after) :
    split t = split before ++ numeral digits :: split after := by
  have first : ∀ b ∈ (digits ++ after).head?, Decimal.isNumeral b = true := by
    intro b head
    rw [List.head?_append_of_ne_nil _ run.some] at head
    exact run.inside b (List.mem_of_mem_head? head)
  have last : ∀ a ∈ digits.getLast?, Decimal.isNumeral a = true :=
    fun a last => run.inside a (List.mem_of_mem_getLast? last)
  rw [run.whole, split_append, split_append, split_numeral run.some run.inside]
  · rfl
  · intro a last' b head letter
    rw [isAlpha_eq_false_of_isNumeral (last a last')] at letter
    cases letter
  · exact fun a _ b head _ => run.ends b head
  · exact fun a _ b head _ => isAlpha_eq_false_of_isNumeral (first b head)
  · intro a last' b _ digit
    rw [run.begins a last'] at digit
    cases digit

/-- A numeral of a text is a run. -/
theorem isRun_of_split {t d : Text} {before after : List Lexeme}
    (cut : split t = before ++ numeral d :: after) : IsRun t (spell before) d (spell after) := by
  have chain := isChain_split t
  have member : numeral d ∈ split t := by simp [cut]
  have memberBefore {l : Lexeme} (among : l ∈ before) : l ∈ split t := by simp [cut, among]
  have memberAfter {l : Lexeme} (among : l ∈ after) : l ∈ split t := by simp [cut, among]
  -- a digit belongs to a numeral, and no numeral stands beside another one
  have numeral_of {l : Lexeme} {c : Char} (member : l ∈ split t) (among : c ∈ l.text)
      (digit : Decimal.isNumeral c = true) : ∃ e, l = numeral e := by
    refine exists_numeral member ?_
    rw [← side_of_mem member c among, Side.ofChar_of_isNumeral digit]
  rw [cut, List.isChain_append] at chain
  refine ⟨?_, text_ne_nil member, fun c among => ((drawn_of_mem_split member).2 c among).2, ?_, ?_⟩
  · rw [← spell_split t, cut]
    simp [spell, text]
  · intro c last
    rw [← Bool.not_eq_true]
    intro digit
    obtain ⟨l, ended, among⟩ :=
      exists_last_of_spell (fun l among => text_ne_nil (memberBefore among)) last
    obtain ⟨e, rfl⟩ := numeral_of (memberBefore (List.mem_of_getLast? ended)) among digit
    cases chain.2.2 _ ended _ rfl
  · intro c head
    rw [← Bool.not_eq_true]
    intro digit
    obtain ⟨l, more, rfl, among⟩ :=
      exists_head_of_spell (fun l among => drawn_of_mem_split (memberAfter among)) head
    obtain ⟨e, rfl⟩ := numeral_of (memberAfter (List.mem_cons_self ..)) among digit
    cases chain.2.1.rel

end Lexeme

namespace Text

variable {t u : Text} {fault : Fault}

/-- What a character that is not admitted is blamed for. -/
theorem Offends.of_refused {before after : Text} {c : Char} (whole : t = before ++ c :: after)
    (refused : ¬ Admitted c) :
    Offends t before (if Token.isSign c then .unsupported (.character c)
      else .malformed (.unexpectedCharacter c)) := by
  cases sign : Token.isSign c with
  | true => exact .sign whole refused sign
  | false => exact .character whole refused sign

/-- **A text offends where it has a lexeme at fault.** -/
theorem offends_iff :
    Offends t u fault ↔ ∃ before l after, split t = before ++ l :: after ∧ spell before = u ∧
      l.fault? = some fault := by
  constructor
  · rintro (⟨whole, refused, isSign⟩ | ⟨whole, refused, noSign⟩ | ⟨run, refused⟩)
    · have alone := standsAlone_of_not_admitted refused
      refine ⟨_, _, _, whole ▸ split_append_cons alone .., spell_split u,
        (fault?_char_iff alone).2 ⟨refused, ?_⟩⟩
      rw [if_pos isSign]
    · have alone := standsAlone_of_not_admitted refused
      refine ⟨_, _, _, whole ▸ split_append_cons alone .., spell_split u,
        (fault?_char_iff alone).2 ⟨refused, ?_⟩⟩
      rw [if_neg (by simp [noSign])]
    · exact ⟨_, _, _, split_of_isRun run, spell_split u, fault?_numeral_iff.2 ⟨refused, rfl⟩⟩
  · rintro ⟨before, l, after, cut, rfl, atFault⟩
    cases l with
    | word w => cases atFault
    | numeral d =>
        obtain ⟨refused, rfl⟩ := fault?_numeral_iff.1 atFault
        exact .run (isRun_of_split cut) refused
    | char c =>
        have alone : standsAlone c = true := standsAlone_of_mem_split (t := t) (by simp [cut])
        have whole : t = spell before ++ c :: spell after := by
          rw [← spell_split t, cut]
          simp [spell, Lexeme.text]
        obtain ⟨refused, rfl⟩ := (fault?_char_iff alone).1 atFault
        exact .of_refused whole refused

/-- The leftmost fault of a text is that of the first lexeme at fault. -/
theorem leftmost_iff :
    Leftmost t u fault ↔ ∃ before l after, split t = before ++ l :: after ∧ spell before = u ∧
      l.fault? = some fault ∧ ∀ m ∈ before, m.fault? = none := by
  constructor
  · rintro ⟨offends, first⟩
    obtain ⟨before, l, after, cut, rfl, atFault⟩ := offends_iff.1 offends
    refine ⟨before, l, after, cut, rfl, atFault, fun m among => ?_⟩
    -- a lexeme at fault among those before it would stand further to the left
    obtain ⟨before', between, rfl⟩ := List.append_of_mem among
    have some : m.text ≠ [] := text_ne_nil (t := t) (by simp [cut])
    cases earlier : m.fault? with
    | none => rfl
    | some fault' =>
        have late := first (spell before') fault'
          (offends_iff.2 ⟨before', m, between ++ l :: after, by simp [cut], rfl, earlier⟩)
        have long := List.length_pos_of_ne_nil some
        simp only [spell, List.flatMap_append, List.flatMap_cons, List.length_append] at late
        omega
  · rintro ⟨before, l, after, cut, rfl, atFault, faultless⟩
    refine ⟨offends_iff.2 ⟨before, l, after, cut, rfl, atFault⟩, fun u' fault' offends => ?_⟩
    obtain ⟨before', l', after', cut', rfl, atFault'⟩ := offends_iff.1 offends
    rcases List.append_eq_append_iff.1 (cut.symm.trans cut') with ⟨more, rfl, -⟩ | ⟨more, rfl, rest⟩
    · simp [spell]
    · cases more with
      | nil => simp [spell]
      | cons m more =>
          obtain ⟨rfl, -⟩ := List.cons_eq_cons.1 rest
          rw [faultless l' (by simp)] at atFault'
          cases atFault'

/-- A text keeps to the lexical grammar if it offends nowhere. -/
theorem forall_not_offends_iff :
    (∀ before fault, ¬ Offends t before fault) ↔
      (∀ c ∈ t, Admitted c) ∧ ∀ before d after, IsRun t before d after → Readable d := by
  constructor
  · refine fun inoffensive => ⟨fun c among => ?_, fun before d after run => ?_⟩
    · by_contra refused
      obtain ⟨before, after, whole⟩ := List.append_of_mem among
      exact inoffensive _ _ (.of_refused whole refused)
    · by_contra refused
      exact inoffensive _ _ (.run run refused)
  · rintro ⟨admitted, readable⟩ before fault offends
    rcases offends with ⟨rfl, refused, -⟩ | ⟨rfl, refused, -⟩ | ⟨run, refused⟩
    · exact refused (admitted _ (by simp))
    · exact refused (admitted _ (by simp))
    · exact refused (readable _ _ _ run)

/-- What stands where a text offends, and the fault that it is. -/
theorem Offends.at_place (offends : Offends t u fault) :
    ∃ c after, t = u ++ c :: after ∧
      (fault = .unsupported (.character c) ∧ Token.isSign c = true ∧ c ≠ '.' ∨
        ¬ (Token.isSign c = true ∧ c ≠ '.') ∧ (fault = .malformed (.unexpectedCharacter c) ∨
          ∃ d after, IsRun t u d after ∧ fault = .malformed (.invalidNumber d))) := by
  rcases offends with ⟨whole, refused, sign⟩ | ⟨whole, refused, noSign⟩ | ⟨run, refused⟩
  · refine ⟨_, _, whole, .inl ⟨rfl, sign, ?_⟩⟩
    rintro rfl
    exact refused (.inr (.inr (.inr (by decide))))
  · exact ⟨_, _, whole, .inr ⟨by simp [noSign], .inl rfl⟩⟩
  · rename_i digits after
    have whole := run.whole
    cases digits with
    | nil => exact absurd rfl run.some
    | cons c more =>
        refine ⟨c, more ++ after, whole, .inr ⟨?_, .inr ⟨_, _, run, rfl⟩⟩⟩
        rintro ⟨sign, noPoint⟩
        have digit : c.isDigit = true := by
          simpa [Decimal.isNumeral, noPoint] using run.inside c (List.mem_cons_self ..)
        simp [Token.isSign, Char.isAlphanum, digit] at sign

end Text

namespace Token

/-- Reading fails with the leftmost fault. -/
theorem read_eq_error_iff {t : Text} {fault : Fault} :
    read t = .error fault ↔ ∃ before, Leftmost t before fault := by
  rw [read, ofLexemes_eq_error_iff, List.findSome?_eq_some_iff]
  simp only [Text.leftmost_iff]
  constructor
  · rintro ⟨before, l, after, cut, atFault, faultless⟩
    exact ⟨_, before, l, after, cut, rfl, atFault, faultless⟩
  · rintro ⟨_, before, l, after, cut, rfl, atFault, faultless⟩
    exact ⟨before, l, after, cut, atFault, faultless⟩

/-- Reading succeeds if there is no fault. -/
theorem exists_read_iff {t : Text} :
    (∃ ts, read t = .ok ts) ↔ ∀ before fault, ¬ Offends t before fault := by
  constructor
  · rintro ⟨ts, ok⟩ before fault offends
    obtain ⟨ls, l, more, cut, -, atFault⟩ := Text.offends_iff.1 offends
    -- one lexeme at fault is enough for reading to fail
    cases first : (split t).findSome? fault? with
    | none =>
        have faultless := List.findSome?_eq_none_iff.1 first l (by simp [cut])
        rw [faultless] at atFault
        cases atFault
    | some fault' =>
        rw [read, ofLexemes_eq_error_iff.2 first] at ok
        cases ok
  · intro inoffensive
    cases result : read t with
    | ok ts => exact ⟨ts, rfl⟩
    | error fault =>
        obtain ⟨before, leftmost⟩ := read_eq_error_iff.1 result
        exact absurd leftmost.offends (inoffensive before fault)

/-- **The lexical grammar, and which fault is reported.**  A text has tokens exactly if its
characters are admitted and its runs of digits and points are numerals of finite doubles; if it has
none, the fault is the leftmost one.  The fault is that something is not supported exactly if an
ASCII sign other than the point stands at its place, and otherwise that the text is malformed; it
names the character there or the whole run that starts there. -/
theorem read_spec (t : Text) :
    ((∃ ts, read t = .ok ts) ↔
        (∀ c ∈ t, Admitted c) ∧ ∀ before d after, IsRun t before d after → Readable d) ∧
      (∀ fault, read t = .error fault ↔ ∃ before, Leftmost t before fault) ∧
      ∀ before fault, Leftmost t before fault → ∃ c after, t = before ++ c :: after ∧
        (fault = .unsupported (.character c) ∧ isSign c = true ∧ c ≠ '.' ∨
          ¬ (isSign c = true ∧ c ≠ '.') ∧ (fault = .malformed (.unexpectedCharacter c) ∨
            ∃ d after, IsRun t before d after ∧ fault = .malformed (.invalidNumber d))) :=
  ⟨exists_read_iff.trans Text.forall_not_offends_iff, fun _ => read_eq_error_iff,
    fun _ _ leftmost => leftmost.offends.at_place⟩

/-- A run that is no numeral is blamed before the signs after it that are not supported. -/
theorem read_spec_run :
    read "2-1.5.@#".toList = .error (.malformed (.invalidNumber "1.5.".toList)) ∧
      ∃ before, Leftmost "2-1.5.@#".toList before (.malformed (.invalidNumber "1.5.".toList)) := by
  have fails : read "2-1.5.@#".toList = .error (.malformed (.invalidNumber "1.5.".toList)) := by
    rfl
  exact ⟨fails, ((read_spec _).2.1 _).1 fails⟩

end Token

end SciCalc
