/-
# SciCalc.Proofs.Products -- no factor is left without a sign

A star is put between the pieces of an entry, the reader of the tokens misses an
operator between tokens, and the tokens of a normal form are cut anew.  What the
two have in common is the sides of characters: in a normal form no two characters
side by side are factors, so its lexemes are detached (`Lexeme.isChain_detached`)
and its tokens too (`Token.Lexes.continues`); a number with a sign is read only
where no operand has just ended.

The reader of tokens misses an operator only between such tokens, and what it
lists is the postfix list of one tree, which leaves no operand over.
`HasOperators` says of a stage that it has no fault for want of an operator; it is
proved stage by stage (`Settings.hasOperators_evaluate`).
-/
import SciCalc.Evaluation
import SciCalc.Proofs.Execution
import SciCalc.Proofs.Piece.FixedPoint
import SciCalc.Proofs.Postfix.Soundness
import SciCalc.Proofs.Token.Sides

namespace SciCalc

set_option autoImplicit false

/-! ## Tokens -/

namespace Token

open Lexeme

/-- Of two tokens side by side not both the first ends an operand and the second begins one. -/
def Detached (a b : Token) : Prop := a.closesValue = true → b.opensValue = false

/-- Tokens that lack no operator where an operand has just ended, if `closed`. -/
structure Continues (closed : Bool) (ts : List Token) : Prop where
  detached : ts.IsChain Detached
  noNegate : ∀ t ∈ ts, t ≠ negate
  first : closed = true → ∀ t ∈ ts.head?, t.opensValue = false

theorem Continues.cons {closed : Bool} {t : Token} {ts : List Token}
    (rest : Continues t.closesValue ts) (noNegate : t ≠ negate)
    (first : closed = true → t.opensValue = false) : Continues closed (t :: ts) where
  detached := rest.detached.cons fun u next closes => rest.first closes u next
  noNegate := List.forall_mem_cons.2 ⟨noNegate, rest.noNegate⟩
  first := fun closed => by simpa using first closed

theorem Continues.tail {closed : Bool} {t : Token} {ts : List Token}
    (continues : Continues closed (t :: ts)) : Continues t.closesValue ts where
  detached := continues.detached.tail
  noNegate := (List.forall_mem_cons.1 continues.noNegate).2
  first := fun closes _ next => continues.detached.rel_head? next closes

/-- **Detached lexemes are read as detached tokens.**  A number with a sign is read only where no
operand has just ended. -/
theorem Lexes.continues {closed : Bool} {ls : List Lexeme} {ts : List Token}
    (lexes : Lexes closed ls ts) (detached : ls.IsChain Lexeme.Detached)
    (shown : ∀ c, .char c ∈ ls → isBlank c = false ∧ c ≠ '√')
    (first : closed = true → ∀ l ∈ ls.head?, l.side.begins = false) : Continues closed ts := by
  induction lexes with
  | nil closed => exact ⟨.nil, nofun, fun _ _ => nofun⟩
  | @word closed w ls ts rest ih =>
      have goesOn : Continues (name (w.map Char.toLower)).closesValue ts :=
        ih detached.tail (fun c member => shown c (.tail _ member)) nofun
      refine goesOn.cons nofun fun closed => ?_
      cases first closed _ rfl
  | @numeral closed d v ls ts value rest ih =>
      have goesOn : Continues (number v).closesValue ts :=
        ih detached.tail (fun c member => shown c (.tail _ member))
          fun _ l next => detached.rel_head? next rfl
      refine goesOn.cons nofun fun closed => ?_
      cases first closed _ rfl
  | @signed d v ls ts value rest ih =>
      have goesOn : Continues (number (-v)).closesValue ts :=
        ih detached.tail.tail (fun c member => shown c (.tail _ (.tail _ member)))
          fun _ l next => detached.tail.rel_head? next rfl
      exact goesOn.cons nofun nofun
  | @power closed ls ts rest ih =>
      have goesOn : Continues (operator .pow).closesValue ts :=
        ih detached.tail.tail (fun c member => shown c (.tail _ (.tail _ member))) nofun
      exact goesOn.cons nofun fun _ => rfl
  | blank white rest ih =>
      rw [(shown _ (.head _)).1] at white
      cases white
  | @char closed c t ls ts apart single rest ih =>
      obtain ⟨closes, opens, noNegate⟩ := ofChar_spec single (shown c (.head _)).2
      have goesOn : Continues t.closesValue ts :=
        ih detached.tail (fun c member => shown c (.tail _ member))
          fun closed l next => detached.rel_head? next (closes.symm.trans closed)
      refine goesOn.cons noNegate fun closed => ?_
      rw [opens]
      exact first closed _ rfl

/-- **The tokens of a normal form.** -/
theorem continues_of_read {entry : Text} {ts : List Token}
    (done : read (normalize entry) = .ok ts) : Continues false ts := by
  have normal := normal_normalize entry
  refine (lexes_of_read done).continues (isChain_detached normal.apart) (fun c member => ?_) nofun
  have kept : Kept c := drawn_split normal.kept _ member
  exact ⟨kept.visible, kept.noRoot⟩

end Token

/-! ## Results without a missing operator -/

/-- Whether an entry is malformed for want of an operator. -/
def Malformed.lacksOperator : Malformed → Bool
  | missingOperatorBefore _ => true
  | missingOperator => true
  | _ => false

/-- Whether an operator is missing, whatever functions the fault arose in. -/
def Fault.lacksOperator : Fault → Bool
  | malformed cause => cause.lacksOperator
  | within _ fault => fault.lacksOperator
  | _ => false

theorem Fault.lacksOperator_innermost (fault : Fault) :
    fault.innermost.lacksOperator = fault.lacksOperator := by
  induction fault with
  | within function fault ih => exact ih
  | _ => rfl

theorem Fault.lacksOperator_of_ofOperation {fault : Fault} (single : fault.ofOperation = true) :
    fault.lacksOperator = false := by
  cases fault <;> first | rfl | cases single

/-- The result is no fault for want of an operator. -/
def HasOperators {α : Type} (result : Except Fault α) : Prop :=
  ∀ fault, result = .error fault → fault.lacksOperator = false

namespace HasOperators

variable {α β : Type} {result : Except Fault α}

theorem ok (v : α) : HasOperators (.ok v) := nofun

theorem error {fault : Fault} (other : fault.lacksOperator = false) :
    HasOperators (.error fault : Except Fault α) :=
  FailsOnly.error other

theorem bind (first : HasOperators result) {next : α → Except Fault β}
    (second : ∀ v, result = .ok v → HasOperators (next v)) : HasOperators (result >>= next) :=
  FailsOnly.bind first second

end HasOperators

/-! ## Reading tokens -/

namespace Token

theorem hasOperators_readNumeral (d : Text) : HasOperators (readNumeral d) := by
  unfold readNumeral
  split
  · exact .error rfl
  · split
    · exact .ok _
    · exact .error rfl

theorem hasOperators_ofChar (c : Char) : HasOperators (ofChar c) := by
  unfold ofChar
  split
  · exact .ok _
  · split <;> try exact .ok _
    split
    · exact .ok _
    · split <;> exact .error rfl

/-- Reading tokens one by one misses no operator. -/
theorem hasOperators_ofLexemes (closed : Bool) (ls : List Lexeme) :
    HasOperators (ofLexemes closed ls) := by
  induction closed, ls using ofLexemes.induct with
  | case1 closed => exact .ok _
  | case2 closed w ls ih =>
      rw [ofLexemes]
      exact ih.bind fun _ _ => .ok _
  | case3 closed d ls ih =>
      rw [ofLexemes]
      exact (hasOperators_readNumeral d).bind fun _ _ => ih.bind fun _ _ => .ok _
  | case4 d ls ih =>
      rw [ofLexemes, if_pos rfl]
      exact (hasOperators_readNumeral d).bind fun _ _ => ih.bind fun _ _ => .ok _
  | case5 closed d ls notClosed ih =>
      rw [ofLexemes, if_neg notClosed]
      exact (hasOperators_readNumeral d).bind fun _ _ => ih.bind fun _ _ => .ok _
  | case6 closed ls ih =>
      rw [ofLexemes]
      exact ih.bind fun _ _ => .ok _
  | case7 closed c ls noNumeral noStar ihBlank ihToken =>
      rw [ofLexemes]
      · refine (hasOperators_ofChar c).bind fun t _ => ?_
        cases t with
        | none => exact ihBlank
        | some t => exact (ihToken t).bind fun _ _ => .ok _
      · exact noNumeral
      · exact noStar

end Token

/-! ## Postfix lists -/

namespace Postfix

namespace Yard

variable {maxNesting : Nat}

/-- An operator is missing only before a token that begins an operand after another one. -/
theorem hasOperators_step {y : Yard} {t : Token} (noNegate : t ≠ .negate)
    (first : y.afterValue = true → t.opensValue = false) (next : Option Token) :
    HasOperators (y.step maxNesting t next) := by
  have due (opens : t.opensValue = true) : ¬ y.afterValue = true := by
    intro after
    rw [first after] at opens
    cases opens
  cases t with
  | number v =>
      rw [step, if_neg (due rfl)]
      exact .ok _
  | name w =>
      rw [step]
      cases known : Func.ofName? w with
      | none => exact .error rfl
      | some f =>
          simp only [if_neg (due rfl)]
          split
          · exact .ok _
          · exact .error rfl
  | openGroup =>
      rw [step, if_neg (due rfl)]
      split
      · exact .error rfl
      · exact .ok _
  | closeGroup =>
      rw [step]
      split
      · exact y.failsOnly_close rfl
      · exact .error rfl
  | factorial =>
      rw [step]
      split
      · exact .ok _
      · exact .error rfl
  | negate => exact absurd rfl noNegate
  | operator o =>
      rw [step]
      split
      · exact .ok _
      · split
        · exact .ok _
        · exact .error rfl

/-- **Reading detached tokens misses no operator**, since after each token the yard knows whether
it has ended an operand. -/
theorem hasOperators_scan {following : Option Token} {y : Yard} {ts : List Token}
    (continues : Token.Continues y.afterValue ts) :
    HasOperators (scan maxNesting following y ts) := by
  induction ts generalizing y with
  | nil => exact .ok y
  | cons t ts ih =>
      have noNegate := continues.noNegate t (List.mem_cons_self ..)
      refine (hasOperators_step noNegate (fun after => continues.first after t rfl) _).bind
        fun z stepped => ih ?_
      rw [(moves_of_step stepped).afterValue]
      exact continues.tail

theorem hasOperators_finish (y : Yard) : HasOperators y.finish := by
  unfold finish
  split
  · exact .error rfl
  · split
    · exact .error rfl
    · exact .ok _

end Yard

theorem hasOperators_ofTokens {ts : List Token} (continues : Token.Continues false ts)
    (maxNesting : Nat) : HasOperators (ofTokens maxNesting ts) := by
  unfold ofTokens
  split
  · exact .error rfl
  · exact (Yard.hasOperators_scan continues).bind fun y _ => y.hasOperators_finish

/-- What is listed for tokens is the list of one tree, so nothing is left over. -/
theorem hasOperators_tree {maxNesting : Nat} {ts listed : List Token}
    (read : ofTokens maxNesting ts = .ok listed) (maxHeight : Nat) :
    HasOperators (tree maxHeight listed) := by
  obtain ⟨x, -, -, rfl⟩ := ofTokens_eq_ok_iff.1 read
  rw [tree_postorder]
  split
  · exact .ok _
  · exact .error rfl

end Postfix

/-! ## Entries -/

/-- No operation on values is for want of an operator. -/
theorem Expr.hasOperators_value (lib : Elementary) (mode : AngleMode) (e : Expr) :
    HasOperators (e.value lib mode) := by
  intro fault fails
  rw [← Fault.lacksOperator_innermost]
  exact Fault.lacksOperator_of_ofOperation (ofOperation_of_value fails)

namespace Settings

theorem hasOperators_admitTokens (s : Settings) (ts : List Token) :
    HasOperators (s.admitTokens ts) := by
  unfold admitTokens
  split
  · exact .error rfl
  · exact .ok _

theorem hasOperators_read (s : Settings) (entry : Text) : HasOperators (s.read entry) := by
  unfold read
  simp only
  split
  · exact .error rfl
  · refine (Token.hasOperators_ofLexemes false _).bind fun tokens done => ?_
    have continues := Token.continues_of_read done
    refine (s.hasOperators_admitTokens tokens).bind fun _ _ => ?_
    refine (Postfix.hasOperators_ofTokens continues s.maxNesting).bind fun listed read => ?_
    exact (Postfix.hasOperators_tree read s.maxHeight).bind fun e _ => .ok _

theorem hasOperators_evaluate (lib : Elementary) (s : Settings) (entry : Text) :
    HasOperators (s.evaluate lib entry) :=
  (s.hasOperators_read entry).bind fun r _ =>
    (r.tree.hasOperators_value lib s.mode).bind fun _ _ => .ok _

end Settings

/-- **Every product has its sign.**  In the tokens of a normal form no token that begins an operand
follows one that ends an operand, and no evaluation fails for want of an operator. -/
theorem products_have_signs (entry : Text) :
    (∀ ts, Token.read (normalize entry) = .ok ts →
        ts.IsChain fun a b => ¬ (a.closesValue = true ∧ b.opensValue = true)) ∧
      ∀ (lib : Elementary) (s : Settings) (fault : Fault), s.evaluate lib entry = .error fault →
        fault.lacksOperator = false := by
  refine ⟨fun ts done => ?_, fun lib s => s.hasOperators_evaluate lib entry⟩
  refine (Token.continues_of_read done).detached.imp ?_
  rintro a b detached ⟨closes, opens⟩
  rw [detached closes] at opens
  cases opens

/-- Two signs are put into `2(3)√(`, which then fails for want of an operand. -/
theorem products_have_signs_open_group :
    let entry : Text := "2(3)√("
    let ts : List Token := [.number 2, .operator .mul, .openGroup, .number 3, .closeGroup,
      .operator .mul, .name Func.sqrt.name, .openGroup]
    let fault : Fault := .malformed .missingFinalOperand
    (Token.read (normalize entry) = .ok ts ∧
        ts.IsChain fun a b => ¬ (a.closesValue = true ∧ b.opensValue = true)) ∧
      Settings.evaluate .machine {} entry = .error fault ∧ fault.lacksOperator = false := by
  intro entry ts fault
  obtain ⟨tokens, faults⟩ := products_have_signs entry
  have read : Token.read (normalize entry) = .ok ts := rfl
  have fails : Settings.evaluate .machine {} entry = .error fault := rfl
  exact ⟨⟨read, tokens ts read⟩, fails, faults .machine {} fault fails⟩

end SciCalc
