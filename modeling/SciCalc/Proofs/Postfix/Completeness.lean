/-
# SciCalc.Proofs.Postfix.Completeness -- every phrase is read, as its own tree

A phrase read on top of a waiting list that carries it leaves that list as it
was, below the operators of the phrase that still wait, and those bind at least
as much as the phrase (`Yard.scan_tokens`).  Released, they complete the postfix
list of the phrase's tree.  At the end of the tokens everything is released, so
`Phrase.ofTokens_tokens_and_tree`: the postfix list of a phrase is that of its
tree, and its tree is read back from it.
-/
import SciCalc.Proofs.Postfix.Moves
import SciCalc.Proofs.Postfix.Postorder

namespace SciCalc

set_option autoImplicit false

namespace Postfix

namespace Yard

variable {maxNesting : Nat} {c : Category}

/-- The yard `z` is `y` after a phrase that binds at level `n` and whose postfix list is `ts`: some
operators of the phrase wait above what waited before, and releasing them completes the list. -/
def Completes (y : Yard) (n : Nat) (ts : List Token) (z : Yard) : Prop :=
  ∃ held emitted, z = ⟨emitted, held ++ y.waiting, true, y.depth⟩ ∧
    (∀ p ∈ held, n ≤ p.precedence) ∧
      (held.map Pending.token).reverse ++ emitted = ts.reverse ++ y.emitted

/-- A complete phrase is one of every looser level. -/
theorem Completes.mono {y z : Yard} {n k : Nat} {ts : List Token} (complete : y.Completes n ts z)
    (looser : k ≤ n) : y.Completes k ts z := by
  obtain ⟨held, emitted, same, binds, listed⟩ := complete
  exact ⟨held, emitted, same, fun p member => Nat.le_trans looser (binds p member), listed⟩

/-- A phrase that binds more than any operator has released all of its own. -/
theorem Completes.eq_of_level {y z : Yard} {n : Nat} {ts : List Token}
    (complete : y.Completes n ts z) (tight : 5 ≤ n) :
    z = ⟨ts.reverse ++ y.emitted, y.waiting, true, y.depth⟩ := by
  obtain ⟨held, emitted, same, binds, listed⟩ := complete
  cases held with
  | nil =>
      simp only [List.map_nil, List.reverse_nil, List.nil_append] at listed same
      rw [same, listed]
  | cons p held =>
      have low := p.precedence_le
      have high := binds p (List.mem_cons_self ..)
      omega

theorem completes_of_eq (y : Yard) (n : Nat) (ts : List Token) :
    y.Completes n ts ⟨ts.reverse ++ y.emitted, y.waiting, true, y.depth⟩ :=
  ⟨[], _, rfl, by simp, rfl⟩

/-- A negation waits below its operand and is released with it. -/
theorem Completes.negated {y z : Yard} {ts : List Token}
    (complete : (y.await .negate).Completes 4 ts z) : y.Completes 4 (ts ++ [.negate]) z := by
  obtain ⟨held, emitted, same, binds, listed⟩ := complete
  refine ⟨held ++ [.negate], emitted, by simpa [await] using same, fun p member => ?_, ?_⟩
  · rcases List.mem_append.1 member with inHeld | isNegate
    · exact binds p inHeld
    · obtain rfl := List.mem_singleton.1 isNegate
      exact Nat.le_refl 4
  · simpa [await, Pending.token] using listed

/-- An operator releases its left operand and waits for the right one. -/
theorem Completes.released {y z : Yard} {o : Operator} {ts : List Token}
    (complete : y.Completes o.precedence ts z) (carries : Pending.Carries o.left y.waiting) :
    (z.release (Pending.yields o)).await (.operator o) =
      ⟨ts.reverse ++ y.emitted, .operator o :: y.waiting, false, y.depth⟩ := by
  obtain ⟨held, emitted, rfl, binds, listed⟩ := complete
  have yields : ∀ p ∈ held, p.yields o = true := fun p member =>
    (Pending.yields_iff o p).2 (binds p member)
  rw [release_eq (Pending.yields o) rfl yields carries.not_yields, ← listed]
  rfl

/-- The right operand completes the operator that waits below it. -/
theorem Completes.applied {y z : Yard} {o : Operator} {ts us : List Token}
    (complete : Completes ⟨ts.reverse ++ y.emitted, .operator o :: y.waiting, false, y.depth⟩
      (o.precedence + 1) us z) :
    y.Completes o.precedence (ts ++ us ++ [.operator o]) z := by
  obtain ⟨held, emitted, same, binds, listed⟩ := complete
  refine ⟨held ++ [.operator o], emitted, by simpa using same, fun p member => ?_, ?_⟩
  · rcases List.mem_append.1 member with inHeld | isOperator
    · exact Nat.le_of_succ_le (binds p inHeld)
    · obtain rfl := List.mem_singleton.1 isOperator
      exact Nat.le_refl _
  · simp only [List.map_append, List.map_cons, List.map_nil, List.reverse_append,
      List.reverse_cons, List.reverse_nil, List.nil_append, List.cons_append, listed,
      Pending.token, List.append_assoc]

/-- What a group has read before it closes: its operators wait above it and are no groups. -/
theorem Completes.inGroup {y z : Yard} {n : Nat} {ts : List Token}
    (complete : y.Completes n ts z) (binds : 1 ≤ n) :
    ∃ held emitted, z = ⟨emitted, held ++ y.waiting, true, y.depth⟩ ∧
      (∀ p ∈ held, p.isGroup = false) ∧
        (held.map Pending.token).reverse ++ emitted = ts.reverse ++ y.emitted := by
  obtain ⟨held, emitted, same, above, listed⟩ := complete
  exact ⟨held, emitted, same, fun p member =>
    Pending.isGroup_eq_false_of_precedence (Nat.le_trans binds (above p member)), listed⟩

/-- **One phrase.**  On a waiting list that carries it, a phrase is read to its end and leaves the
list below what it completes. -/
theorem scan_tokens (d : Phrase c) {y : Yard} (due : y.afterValue = false)
    (carries : Pending.Carries c y.waiting) (fits : y.depth + d.nesting ≤ maxNesting)
    (following : Option Token) :
    ∃ z, scan maxNesting following y d.tokens = .ok z ∧
      y.Completes c.level d.tree.postorder z := by
  induction d generalizing y following with
  | number v =>
      exact ⟨_, scan_cons_ok.2 ⟨_, .number v due, rfl⟩, completes_of_eq y _ _⟩
  | group x ih =>
      have room : y.depth + 1 + x.nesting ≤ maxNesting := by
        simp only [Phrase.nesting] at fits
        omega
      obtain ⟨z, run, complete⟩ := ih (y := { y.await .group with depth := y.depth + 1 }) rfl
        (Pending.carries_group _ _) room (some .closeGroup)
      obtain ⟨held, emitted, rfl, loose, listed⟩ := complete.inGroup (Nat.le_refl 1)
      have closed := close_group (y := ⟨emitted, held ++ .group :: y.waiting, true, y.depth + 1⟩)
        rfl loose carries.bare
      refine ⟨⟨x.tree.postorder.reverse ++ y.emitted, y.waiting, true, y.depth⟩, ?_,
        completes_of_eq y _ _⟩
      rw [listed] at closed
      exact scan_cons_ok.2 ⟨_, .openGroup due (by omega),
        scan_append_ok.2 ⟨_, run, scan_cons_ok.2 ⟨_, .closeGroup _ rfl closed, rfl⟩⟩⟩
  | call f x ih =>
      have room : y.depth + 1 + x.nesting ≤ maxNesting := by
        simp only [Phrase.nesting] at fits
        omega
      obtain ⟨z, run, complete⟩ := ih
        (y := { (y.await (.call f)).await .group with depth := y.depth + 1 }) rfl
        (Pending.carries_group _ _) room (some .closeGroup)
      obtain ⟨held, emitted, rfl, loose, listed⟩ := complete.inGroup (Nat.le_refl 1)
      have closed := close_call
        (y := ⟨emitted, held ++ .group :: .call f :: y.waiting, true, y.depth + 1⟩) rfl loose
      refine ⟨⟨(x.tree.postorder ++ [Token.name f.name]).reverse ++ y.emitted, y.waiting, true,
        y.depth⟩, ?_, completes_of_eq y _ _⟩
      rw [listed] at closed
      have named : Yard.close ⟨emitted, held ++ .group :: .call f :: y.waiting, true, y.depth + 1⟩ =
          .ok ⟨(x.tree.postorder ++ [Token.name f.name]).reverse ++ y.emitted, y.waiting, true,
            y.depth⟩ := by
        rw [List.reverse_append]
        exact closed
      have opened : (y.await (.call f)).depth + 1 ≤ maxNesting := by
        simp only [await]
        omega
      exact scan_cons_ok.2 ⟨_, .call f due rfl, scan_cons_ok.2 ⟨_, .openGroup rfl opened,
        scan_append_ok.2 ⟨_, run, scan_cons_ok.2 ⟨_, .closeGroup _ rfl named, rfl⟩⟩⟩⟩
  | ofPrimary x ih | ofSuffixed x ih | ofUnary x ih | ofPower x ih | ofProduct x ih =>
      obtain ⟨z, run, complete⟩ := ih due (carries.of_level_le (by decide)) fits following
      exact ⟨z, run, complete.mono (by decide)⟩
  | factorial x ih =>
      obtain ⟨z, run, complete⟩ := ih due carries fits (some .factorial)
      obtain rfl := complete.eq_of_level (Nat.le_refl 5)
      refine ⟨_, scan_append_ok.2 ⟨_, run, scan_cons_ok.2 ⟨_, .factorial rfl, rfl⟩⟩, ?_⟩
      have whole := completes_of_eq y 5 (x.tree.postorder ++ [.factorial])
      rw [List.reverse_append] at whole
      exact whole
  | minus x ih =>
      obtain ⟨z, run, complete⟩ := ih (y := y.await .negate) rfl
        (Pending.carries_of_bare (by decide) (by simp [await])) fits following
      exact ⟨z, scan_cons_ok.2 ⟨_, .minus due, run⟩, complete.negated⟩
  | negate x ih =>
      obtain ⟨z, run, complete⟩ := ih (y := y.await .negate) rfl
        (Pending.carries_of_bare (by decide) (by simp [await])) fits following
      exact ⟨z, scan_cons_ok.2 ⟨_, .negate due, run⟩, complete.negated⟩
  | binary o a b iha ihb =>
      simp only [Phrase.nesting] at fits
      obtain ⟨x, runA, completeA⟩ := iha due carries (by omega) (some (.operator o))
      rw [o.level_left] at completeA
      have waits := completeA.released carries
      have above : Pending.Carries o.right (.operator o :: y.waiting) := by
        intro p isOperator
        obtain rfl := Option.some.inj isOperator
        refine ⟨fun f => by simp, .inl ?_⟩
        rw [o.level_right]
        exact Nat.lt_succ_self _
      obtain ⟨z, runB, completeB⟩ := ihb
        (y := ⟨a.tree.postorder.reverse ++ y.emitted, .operator o :: y.waiting, false, y.depth⟩) rfl
        above (by simp only; omega) following
      rw [o.level_right] at completeB
      have afterA : x.afterValue = true := by
        obtain ⟨held, emitted, rfl, -⟩ := completeA
        rfl
      refine ⟨z, scan_append_ok.2 ⟨x, runA, scan_cons_ok.2 ⟨_, .operator o afterA, ?_⟩⟩, ?_⟩
      · rw [waits]
        exact runB
      · rw [o.level_left]
        exact completeB.applied

end Yard

end Postfix

namespace Phrase

open Postfix

theorem tokens_ne_nil {c : Category} (d : Phrase c) : d.tokens ≠ [] := by
  induction d with
  | number v => simp [tokens]
  | group x ih => simp [tokens]
  | call f x ih => simp [tokens]
  | factorial x ih => simp [tokens]
  | minus x ih => simp [tokens]
  | negate x ih => simp [tokens]
  | binary o x y ihx ihy => simp [tokens]
  | ofPrimary x ih | ofSuffixed x ih | ofUnary x ih | ofPower x ih | ofProduct x ih => exact ih

/-- The postfix list of a phrase is that of its tree. -/
theorem ofTokens_tokens (d : Phrase .sum) {maxNesting : Nat} (fits : d.nesting ≤ maxNesting) :
    ofTokens maxNesting d.tokens = .ok d.tree.postorder := by
  obtain ⟨z, run, complete⟩ := Yard.scan_tokens (y := {}) d rfl (Pending.carries_nil _)
    (by simpa using fits) none
  obtain ⟨held, emitted, rfl, loose, listed⟩ := complete.inGroup (Nat.le_refl 1)
  have closed : held.any Pending.isGroup = false := by
    simpa using loose
  have released := Yard.release_eq (y := ⟨emitted, held, true, 0⟩) (fun _ => true) (w := [])
    (List.append_nil held).symm (fun _ _ => rfl) (by simp)
  have done : Yard.finish ⟨emitted, held, true, 0⟩ = .ok d.tree.postorder := by
    simp only [Yard.finish, released, closed, listed]
    simp
  unfold ofTokens
  rw [if_neg (by simpa using d.tokens_ne_nil), run]
  simpa [bind, Except.bind] using done

/-- **Every phrase is read as its tree.**  A phrase nested no deeper than the limit has the postfix
list of its tree, and from that list comes the tree itself wherever its height is allowed. -/
theorem ofTokens_tokens_and_tree (d : Phrase .sum) (maxNesting : Nat)
    (fits : d.nesting ≤ maxNesting) :
    ofTokens maxNesting d.tokens = .ok d.tree.postorder ∧
      ∀ maxHeight, d.tree.height ≤ maxHeight →
        Postfix.tree maxHeight d.tree.postorder = .ok d.tree :=
  ⟨d.ofTokens_tokens fits, fun _ low => tree_postorder_of_le low⟩

/-- `2 ^ - ( 1 ) ^ 2` is `(2 ^ -(1)) ^ 2`: a negation binds more than a power, powers group to the
left. -/
theorem ofTokens_tokens_and_tree_power :
    let one : Phrase .unary := .ofSuffixed (.ofPrimary (.group (.ofProduct (.ofPower (.ofUnary
      (.ofSuffixed (.ofPrimary (.number 1))))))))
    let two : Phrase .unary := .ofSuffixed (.ofPrimary (.number 2))
    let powers : Phrase .sum := .ofProduct (.ofPower
      (.binary .pow (.binary .pow (.ofUnary two) (.minus one)) two))
    powers.tree = .binary .pow (.binary .pow (.number 2) (.negate (.number 1))) (.number 2) ∧
      powers.nesting ≤ 1 ∧ ofTokens 1 powers.tokens = .ok powers.tree.postorder ∧
        Postfix.tree 4 powers.tree.postorder = .ok powers.tree := by
  intro one two powers
  have low : powers.nesting ≤ 1 := by decide
  obtain ⟨listed, read⟩ := ofTokens_tokens_and_tree powers 1 low
  exact ⟨rfl, low, listed, read 4 (by decide)⟩

end Phrase

end SciCalc
