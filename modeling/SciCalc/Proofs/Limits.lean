/-
# SciCalc.Proofs.Limits -- limits are only ever met

A limit stands in three stages: on the number of tokens, on the groups open
while the tokens are read, on the height of the tree while it is built.  Two
evaluations of one entry, the limits of the first no higher than those of the
second, go through the same states until the first meets one of its limits.

`Tightens` says this of two results.  It is kept by putting computations one
after another (`Tightens.bind`), so each stage needs one lemma about one step.
The whole evaluation then follows: raising limits changes no success and no
fault but that a limit was met (`Settings.evaluate_of_covers`).
-/
import SciCalc.Proofs.Composition

namespace SciCalc

set_option autoImplicit false

/-- The first result is that a limit was met, or the two are the same. -/
def Tightens {α : Type} (tight loose : Except Fault α) : Prop :=
  (∃ fault, tight = .error fault ∧ fault.kind = .limit) ∨ tight = loose

namespace Tightens

variable {α β : Type} {tight loose : Except Fault α}

theorem refl (result : Except Fault α) : Tightens result result := .inr rfl

theorem met {result : Except Fault α} (cause : Exceeded) :
    Tightens (.error (.exceeded cause)) result :=
  .inl ⟨_, rfl, rfl⟩

/-- **One computation after another**: the second ones are compared only where the first ones
agree. -/
theorem bind (first : Tightens tight loose) {next next' : α → Except Fault β}
    (second : ∀ v, Tightens (next v) (next' v)) : Tightens (tight >>= next) (loose >>= next') := by
  rcases first with ⟨fault, rfl, limit⟩ | rfl
  · exact .inl ⟨fault, rfl, limit⟩
  · cases tight with
    | error fault => exact .refl _
    | ok v => exact second v

/-- A success within the tighter limits is one within the looser. -/
theorem ok {v : α} (tightens : Tightens tight loose) (done : tight = .ok v) : loose = .ok v := by
  rcases tightens with ⟨fault, failed, -⟩ | rfl
  · rw [failed] at done
    cases done
  · exact done

/-- A fault within the tighter limits is one within the looser, unless a limit was met. -/
theorem error {fault : Fault} (tightens : Tightens tight loose) (failed : tight = .error fault)
    (other : fault.kind ≠ .limit) : loose = .error fault := by
  rcases tightens with ⟨fault', failed', limit⟩ | rfl
  · obtain rfl : fault' = fault := Except.error.inj (failed'.symm.trans failed)
    exact absurd limit other
  · exact failed

end Tightens

/-! ## The nesting -/

namespace Postfix

namespace Yard

variable {maxNesting maxNesting' : Nat}

/-- Only an opening parenthesis looks at the limit. -/
theorem tightens_step (le : maxNesting ≤ maxNesting') (y : Yard) (t : Token)
    (next : Option Token) : Tightens (y.step maxNesting t next) (y.step maxNesting' t next) := by
  cases t with
  | openGroup =>
      cases after : y.afterValue with
      | true =>
          simp only [step, after, if_true]
          exact .refl _
      | false =>
          by_cases fits : y.depth + 1 ≤ maxNesting
          · have loose : y.depth + 1 ≤ maxNesting' := Nat.le_trans fits le
            simp only [step, Nat.not_lt.2 fits, Nat.not_lt.2 loose, if_false]
            exact .refl _
          · simp only [step, after, Nat.not_le.1 fits, if_true, Bool.false_eq_true, if_false]
            exact .met _
  | _ => exact .refl _

/-- **A run under the lower limit** is the run under the higher one, or meets the limit. -/
theorem tightens_scan (le : maxNesting ≤ maxNesting') (following : Option Token) (y : Yard)
    (ts : List Token) :
    Tightens (scan maxNesting following y ts) (scan maxNesting' following y ts) := by
  induction ts generalizing y with
  | nil => exact .refl _
  | cons t ts ih => exact (tightens_step le y t _).bind ih

end Yard

theorem tightens_ofTokens {maxNesting maxNesting' : Nat} (le : maxNesting ≤ maxNesting')
    (ts : List Token) : Tightens (ofTokens maxNesting ts) (ofTokens maxNesting' ts) := by
  unfold ofTokens
  split
  · exact .refl _
  · exact (Yard.tightens_scan le none {} ts).bind fun y => .refl y.finish

/-! ## The height -/

namespace Stack

variable {maxHeight maxHeight' : Nat}

theorem tightens_grow (le : maxHeight ≤ maxHeight') (height : Nat) :
    Tightens (grow maxHeight height) (grow maxHeight' height) := by
  by_cases fits : height + 1 ≤ maxHeight
  · have loose : height + 1 ≤ maxHeight' := Nat.le_trans fits le
    simp only [grow, Nat.not_lt.2 fits, Nat.not_lt.2 loose, if_false]
    exact .refl _
  · simp only [grow, Nat.not_le.1 fits, if_true]
    exact .met _

theorem tightens_applyOne (le : maxHeight ≤ maxHeight') (t : Token) (node : Expr → Expr)
    (st : Stack) : Tightens (applyOne maxHeight t node st) (applyOne maxHeight' t node st) := by
  cases st with
  | nil => exact .refl _
  | cons top rest => exact (tightens_grow le top.2).bind fun _ => .refl _

theorem tightens_applyTwo (le : maxHeight ≤ maxHeight') (t : Token) (node : Expr → Expr → Expr)
    (st : Stack) : Tightens (applyTwo maxHeight t node st) (applyTwo maxHeight' t node st) := by
  cases st with
  | nil => exact .refl _
  | cons top rest =>
      cases rest with
      | nil => exact .refl _
      | cons below rest => exact (tightens_grow le (max below.2 top.2)).bind fun _ => .refl _

theorem tightens_step (le : maxHeight ≤ maxHeight') (st : Stack) (t : Token) :
    Tightens (step maxHeight st t) (step maxHeight' st t) := by
  cases t with
  | operator o => exact tightens_applyTwo le _ _ st
  | negate => exact tightens_applyOne le _ _ st
  | factorial => exact tightens_applyOne le _ _ st
  | name w =>
      cases known : Func.ofName? w with
      | none =>
          simp only [step, known]
          exact .refl _
      | some f =>
          simp only [step, known]
          exact tightens_applyOne le _ _ st
  | _ => exact .refl _

/-- **A run under the lower limit** is the run under the higher one, or meets the limit. -/
theorem tightens_foldlM (le : maxHeight ≤ maxHeight') (st : Stack) (ts : List Token) :
    Tightens (ts.foldlM (step maxHeight) st) (ts.foldlM (step maxHeight') st) := by
  induction ts generalizing st with
  | nil => exact .refl _
  | cons t ts ih =>
      rw [List.foldlM_cons, List.foldlM_cons]
      exact (tightens_step le st t).bind ih

end Stack

theorem tightens_tree {maxHeight maxHeight' : Nat} (le : maxHeight ≤ maxHeight')
    (ts : List Token) : Tightens (tree maxHeight ts) (tree maxHeight' ts) :=
  (Stack.tightens_foldlM le [] ts).bind fun st => .refl st.only

end Postfix

/-! ## The evaluation -/

namespace Settings

variable {s s' : Settings}

theorem tightens_admitTokens (covers : s'.Covers s) (ts : List Token) :
    Tightens (s.admitTokens ts) (s'.admitTokens ts) := by
  by_cases fits : ts.length ≤ s.maxTokens
  · have loose : ts.length ≤ s'.maxTokens := Nat.le_trans fits covers.tokens
    simp only [admitTokens, Nat.not_lt.2 fits, Nat.not_lt.2 loose, if_false]
    exact .refl _
  · simp only [admitTokens, Nat.not_le.1 fits, if_true]
    exact .met _

/-- Reading goes through the three limits one after another. -/
theorem tightens_read (covers : s'.Covers s) (entry : Text) :
    Tightens (s.read entry) (s'.read entry) := by
  unfold read
  simp only
  split
  · exact .refl _
  · refine (Tightens.refl _).bind fun tokens => ?_
    refine (tightens_admitTokens covers tokens).bind fun _ => ?_
    refine (Postfix.tightens_ofTokens covers.nesting tokens).bind fun listed => ?_
    exact (Postfix.tightens_tree covers.height listed).bind fun e => .refl _

theorem tightens_evaluate (lib : Elementary) (covers : s'.Covers s) (sameMode : s.mode = s'.mode)
    (entry : Text) : Tightens (s.evaluate lib entry) (s'.evaluate lib entry) := by
  unfold evaluate
  rw [sameMode]
  exact (tightens_read covers entry).bind fun r => .refl _

/-- **Limits are only ever met.**  Within lower limits an entry has the fault that a limit was met,
or exactly the result that it has within the higher ones; so raising limits changes no success and
no other fault. -/
theorem evaluate_of_covers (lib : Elementary) (s s' : Settings) (covers : s'.Covers s)
    (sameMode : s.mode = s'.mode) (entry : Text) :
    ((∃ fault, s.evaluate lib entry = .error fault ∧ fault.kind = .limit) ∨
        s.evaluate lib entry = s'.evaluate lib entry) ∧
      (∀ result, s.evaluate lib entry = .ok result → s'.evaluate lib entry = .ok result) ∧
      ∀ fault : Fault, s.evaluate lib entry = .error fault → fault.kind ≠ .limit →
        s'.evaluate lib entry = .error fault :=
  have tightens := tightens_evaluate lib covers sameMode entry
  ⟨tightens, fun _ done => tightens.ok done, fun _ failed other => tightens.error failed other⟩

/-- With one group open at a time `√√(4)` meets the limit, and `1/(2-2)` divides by zero under any
higher limits too. -/
theorem evaluate_of_covers_one_group :
    let low : Settings := { maxNesting := 1 }
    let high : Settings := {}
    (high.Covers low ∧ low.mode = high.mode) ∧
      low.evaluate .machine "√√(4)" = .error (.exceeded (.nesting 1)) ∧
      low.evaluate .machine "1/(2-2)" = .error .divisionByZero ∧
      high.evaluate .machine "1/(2-2)" = .error .divisionByZero := by
  intro low high
  have covers : high.Covers low := ⟨by decide, by decide, by decide⟩
  have divided : low.evaluate .machine "1/(2-2)" = .error .divisionByZero := rfl
  obtain ⟨-, -, errors⟩ := evaluate_of_covers .machine low high covers rfl "1/(2-2)"
  exact ⟨⟨covers, rfl⟩, rfl, divided, errors _ divided (by decide)⟩

end Settings

end SciCalc
