/-
# SciCalc.Proofs.Postfix.Prefixes -- tokens are refused at the first that cannot go on

A refusal is either about a token that has been read or about the end of the
tokens (`Fault.atEnd`): nothing was there, an operand is due, a group is open.

* Of the first kind it is final.  A step looks one token ahead for a name only,
  so whatever follows tokens that do not end with a name, the same step fails
  (`ofTokens_append_of_refused`).
* Of the second kind it can be made good.  An operand where one is due and a
  closing parenthesis for each open group complete any run
  (`Yard.exists_completion`).

So tokens that have been read without a refusal are the beginning of an
expression, and the first token after which they are none is refused
(`ofTokens_correct_prefixes`).
-/
import SciCalc.Proofs.Postfix.Moves

namespace SciCalc

set_option autoImplicit false

/-! ## Faults at the end -/

/-- Whether something is only missing at the end. -/
def Malformed.atEnd : Malformed → Bool
  | emptyExpression => true
  | missingFinalOperand => true
  | unclosedOpen => true
  | _ => false

/-- Whether a fault says only that something is missing at the end. -/
def Fault.atEnd : Fault → Bool
  | malformed cause => cause.atEnd
  | _ => false

/-- A result that, if it is a fault, is about a token that has been read. -/
def BlamesToken {α : Type} (result : Except Fault α) : Prop :=
  FailsOnly (fun fault => fault.atEnd = false) result

namespace Postfix

variable {maxNesting : Nat} {ts : List Token}

/-- The latest group among what waits, and what waits above and below it. -/
theorem Pending.exists_group {w : List Pending} {n : Nat} (opened : groups w = n + 1) :
    ∃ held below, w = held ++ .group :: below ∧ (∀ p ∈ held, p.isGroup = false) ∧
      groups below = n := by
  induction w with
  | nil => cases opened
  | cons p w ih =>
      cases kind : p.isGroup with
      | true =>
          obtain rfl : p = .group := by
            cases p <;> first | rfl | cases kind
          rw [groups_cons_group] at opened
          exact ⟨[], w, rfl, by simp, Nat.succ.inj opened⟩
      | false =>
          rw [groups_cons_of_not_group w kind] at opened
          obtain ⟨held, below, rfl, loose, counted⟩ := ih opened
          refine ⟨p :: held, below, rfl, ?_, counted⟩
          simpa [kind] using loose

namespace Yard

open Pending (groups)

variable {y z : Yard} {t : Token}

/-! ## What a refusal is about -/

/-- A step fails because of what it reads. -/
theorem blamesToken_step (y : Yard) (t : Token) (next : Option Token) :
    BlamesToken (y.step maxNesting t next) := by
  cases t with
  | number v => exact .ite (.error rfl) (.ok _)
  | name w =>
      rw [step]
      cases known : Func.ofName? w with
      | none => exact .error rfl
      | some f => exact .ite (.error rfl) (.ite (.ok _) (.error rfl))
  | openGroup => exact .ite (.error rfl) (.ite (.error rfl) (.ok _))
  | closeGroup => exact .ite (y.failsOnly_close rfl) (.error rfl)
  | factorial => exact .ite (.ok _) (.error rfl)
  | negate => exact .ite (.error rfl) (.ok _)
  | operator o => exact .ite (.ok _) (.ite (.ok _) (.error rfl))

/-- A run fails because of a token that it has reached. -/
theorem blamesToken_scan (following : Option Token) (y : Yard) (ts : List Token) :
    BlamesToken (scan maxNesting following y ts) := by
  induction ts generalizing y with
  | nil => exact .ok y
  | cons t rest ih =>
      rw [scan]
      exact (blamesToken_step y t _).bind fun z _ => ih z

/-- Once the tokens have been read, only the end can be refused. -/
theorem atEnd_of_finish {fault : Fault} (fails : y.finish = .error fault) :
    fault.atEnd = true := by
  unfold finish at fails
  split at fails
  · cases fails
    rfl
  · split at fails
    · cases fails
      rfl
    · cases fails

/-! ## The token in view -/

/-- Only a name looks at the token after it. -/
theorem step_congr_next (noName : ∀ w, t ≠ .name w) (y : Yard) (next next' : Option Token) :
    y.step maxNesting t next = y.step maxNesting t next' := by
  cases t with
  | name w => exact absurd rfl (noName w)
  | _ => rfl

/-- **What follows tokens that do not end with a name** changes nothing in their run. -/
theorem scan_congr_following (noName : ∀ w, ts.getLast? ≠ some (.name w)) (y : Yard)
    (following following' : Option Token) :
    scan maxNesting following y ts = scan maxNesting following' y ts := by
  induction ts generalizing y with
  | nil => rfl
  | cons t rest ih =>
      cases rest with
      | nil =>
          have single (w : Text) : t ≠ .name w := by
            intro isName
            exact noName w (by simp [isName])
          simp only [scan, List.head?_nil, Option.none_or]
          rw [step_congr_next single y following following']
      | cons u rest =>
          have rest' (w : Text) : (u :: rest).getLast? ≠ some (.name w) := by
            intro last
            exact noName w (by rw [List.getLast?_cons_cons, last])
          rw [scan, scan]
          simp only [List.head?_cons, Option.some_or, ih rest']

theorem Moves.of_none (moves : Moves maxNesting y none t z) (next : Option Token) :
    Moves maxNesting y next t z := by
  cases moves with
  | number v due => exact .number v due
  | call f due opens => cases opens
  | openGroup due fits => exact .openGroup due fits
  | closeGroup z complete closed => exact .closeGroup z complete closed
  | factorial complete => exact .factorial complete
  | negate due => exact .negate due
  | minus due => exact .minus due
  | operator o complete => exact .operator o complete

/-- A run with nothing in view at its end is one whatever follows. -/
theorem scan_of_none (run : scan maxNesting none y ts = .ok z) (following : Option Token) :
    scan maxNesting following y ts = .ok z := by
  induction ts generalizing y with
  | nil => exact run
  | cons t rest ih =>
      obtain ⟨x, moves, run⟩ := scan_cons_ok.1 run
      refine scan_cons_ok.2 ⟨x, ?_, ih run⟩
      cases rest with
      | nil => exact moves.of_none following
      | cons u rest => exact moves

/-! ## Completing a run -/

/-- Where a group is open, a parenthesis closes one. -/
theorem exists_close {n : Nat} (opened : groups y.waiting = n + 1) :
    ∃ z, y.close = .ok z ∧ z.afterValue = true ∧ groups z.waiting = n := by
  obtain ⟨held, below, waits, loose, counted⟩ := Pending.exists_group opened
  by_cases called : ∃ f w, below = .call f :: w
  · obtain ⟨f, w, rfl⟩ := called
    refine ⟨_, close_call waits loose, rfl, ?_⟩
    simpa using counted
  · refine ⟨_, close_group waits loose ?_, rfl, counted⟩
    intro f first
    obtain ⟨w, same⟩ := List.head?_eq_some_iff.1 first
    exact called ⟨f, w, same⟩

/-- After an operand, a parenthesis for each open group closes them all. -/
theorem exists_scan_closes {n : Nat} (complete : y.afterValue = true)
    (opened : groups y.waiting = n) :
    ∃ z, scan maxNesting none y (List.replicate n .closeGroup) = .ok z ∧ z.afterValue = true ∧
      groups z.waiting = 0 := by
  induction n generalizing y with
  | zero => exact ⟨y, rfl, complete, opened⟩
  | succ n ih =>
      obtain ⟨x, closed, complete', left⟩ := exists_close opened
      obtain ⟨z, run, done⟩ := ih complete' left
      exact ⟨z, scan_cons_ok.2 ⟨x, .closeGroup x complete closed, run⟩, done⟩

/-- After an operand and with no group open, the tokens may end. -/
theorem exists_listed (complete : y.afterValue = true) (closed : groups y.waiting = 0) :
    ∃ listed, y.finish = .ok listed := by
  have noGroup : y.waiting.any Pending.isGroup = false := by
    simpa [groups] using closed
  rw [finish, complete, noGroup]
  exact ⟨_, rfl⟩

/-- An operand for where one is due. -/
def dueOperand (y : Yard) : List Token := if y.afterValue then [] else [.number 1]

theorem exists_scan_dueOperand (maxNesting : Nat) (following : Option Token) (y : Yard) :
    ∃ z, scan maxNesting following y y.dueOperand = .ok z ∧ z.afterValue = true ∧
      z.waiting = y.waiting := by
  rw [dueOperand]
  cases after : y.afterValue with
  | true => exact ⟨y, rfl, after, rfl⟩
  | false => exact ⟨y.emit (.number 1), scan_cons_ok.2 ⟨_, .number 1 after, rfl⟩, rfl, rfl⟩

/-- The least that makes an expression of a run: an operand if one is due, and a parenthesis for
each open group. -/
def completion (y : Yard) : List Token :=
  y.dueOperand ++ List.replicate (groups y.waiting) .closeGroup

/-- **Every run can be completed.** -/
theorem exists_completion (maxNesting : Nat) (y : Yard) :
    ∃ z listed, scan maxNesting none y y.completion = .ok z ∧ z.finish = .ok listed := by
  obtain ⟨x, first, complete, waits⟩ := exists_scan_dueOperand maxNesting
    ((List.replicate (groups y.waiting) Token.closeGroup).head?.or none) y
  obtain ⟨z, run, complete', closed⟩ := exists_scan_closes complete (congrArg groups waits)
  obtain ⟨listed, done⟩ := exists_listed complete' closed
  exact ⟨z, listed, scan_append_ok.2 ⟨x, first, run⟩, done⟩

end Yard

/-! ## Tokens and what follows them -/

theorem ofTokens_of_scan_error {fault : Fault}
    (fails : Yard.scan maxNesting none {} ts = .error fault) :
    ofTokens maxNesting ts = .error fault := by
  unfold ofTokens
  split
  · rename_i empty
    obtain rfl := List.isEmpty_iff.1 empty
    cases fails
  · rw [fails]
    rfl

theorem ofTokens_of_scan_ok {y : Yard} (some : ts ≠ [])
    (run : Yard.scan maxNesting none {} ts = .ok y) : ofTokens maxNesting ts = y.finish := by
  unfold ofTokens
  rw [if_neg (by simpa using some), run]
  rfl

/-- Tokens are refused in their midst exactly where their run fails. -/
theorem scan_eq_error_iff {fault : Fault} :
    Yard.scan maxNesting none {} ts = .error fault ↔
      ofTokens maxNesting ts = .error fault ∧ fault.atEnd = false := by
  constructor
  · intro fails
    exact ⟨ofTokens_of_scan_error fails, Yard.blamesToken_scan _ _ _ fault fails⟩
  · rintro ⟨refused, read⟩
    cases run : Yard.scan maxNesting none {} ts with
    | error fault' =>
        obtain rfl := Except.error.inj ((ofTokens_of_scan_error run).symm.trans refused)
        rfl
    | ok y =>
        have atEnd : fault.atEnd = true := by
          by_cases empty : ts = []
          · subst empty
            cases refused
            rfl
          · rw [ofTokens_of_scan_ok empty run] at refused
            exact Yard.atEnd_of_finish refused
        rw [atEnd] at read
        cases read

/-- A refusal that is about a token is final. -/
theorem ofTokens_append_of_refused (noName : ∀ w, ts.getLast? ≠ some (.name w)) {fault : Fault}
    (refused : ofTokens maxNesting ts = .error fault) (read : fault.atEnd = false)
    (us : List Token) : ofTokens maxNesting (ts ++ us) = .error fault := by
  have fails := scan_eq_error_iff.2 ⟨refused, read⟩
  rw [Yard.scan_congr_following noName {} none (us.head?.or none)] at fails
  apply ofTokens_of_scan_error
  rw [Yard.scan_append, fails]
  rfl

/-- Tokens whose run does not fail are the beginning of an expression. -/
theorem exists_ofTokens_append {y : Yard} (run : Yard.scan maxNesting none {} ts = .ok y) :
    ∃ us listed, ofTokens maxNesting (ts ++ us) = .ok listed := by
  obtain ⟨z, listed, completed, done⟩ := Yard.exists_completion maxNesting y
  have whole : Yard.scan maxNesting none {} (ts ++ y.completion) = .ok z :=
    Yard.scan_append_ok.2 ⟨y, Yard.scan_of_none run _, completed⟩
  have some : ts ++ y.completion ≠ [] := by
    intro empty
    rw [empty] at whole
    cases whole
    cases done
  exact ⟨y.completion, listed, by rw [ofTokens_of_scan_ok some whole, done]⟩

/-- **Tokens are refused at the first that cannot go on.**  Whatever follows tokens that are refused
for one that has been read, the last of them no name, the refusal stays; and tokens that are listed,
or refused for their end only, go on to tokens that are listed. -/
theorem ofTokens_correct_prefixes (maxNesting : Nat) (ts : List Token) :
    ((∀ w, ts.getLast? ≠ some (.name w)) →
        ∀ fault : Fault, ofTokens maxNesting ts = .error fault → fault.atEnd = false →
          ∀ us : List Token, ofTokens maxNesting (ts ++ us) = .error fault) ∧
      (((∃ listed, ofTokens maxNesting ts = .ok listed) ∨
          ∃ fault : Fault, ofTokens maxNesting ts = .error fault ∧ fault.atEnd = true) →
        ∃ us listed, ofTokens maxNesting (ts ++ us) = .ok listed) := by
  constructor
  · intro noName fault refused read us
    exact ofTokens_append_of_refused noName refused read us
  · intro goesOn
    cases run : Yard.scan maxNesting none {} ts with
    | ok y => exact exists_ofTokens_append run
    | error fault =>
        obtain ⟨refused, read⟩ := scan_eq_error_iff.1 run
        rcases goesOn with ⟨listed, done⟩ | ⟨fault', refused', atEnd⟩
        · rw [refused] at done
          cases done
        · obtain rfl := Except.error.inj (refused.symm.trans refused')
          rw [atEnd] at read
          cases read

/-- Nothing can follow `2)`, and `-sin(` can be completed with one group to open. -/
theorem ofTokens_correct_prefixes_open_call :
    let shut : List Token := [.number 2, .closeGroup]
    let opened : List Token := [.operator .sub, .name Func.sin.name, .openGroup]
    ofTokens 1 shut = .error (.malformed .unmatchedClose) ∧
      (∀ us, ofTokens 1 (shut ++ us) = .error (.malformed .unmatchedClose)) ∧
      ofTokens 1 opened = .error (.malformed .missingFinalOperand) ∧
      ∃ us listed, ofTokens 1 (opened ++ us) = .ok listed := by
  intro shut opened
  have refused : ofTokens 1 shut = .error (.malformed .unmatchedClose) := rfl
  have ends : ofTokens 1 opened = .error (.malformed .missingFinalOperand) := rfl
  have final := (ofTokens_correct_prefixes 1 shut).1 (by simp [shut]) _ refused rfl
  exact ⟨refused, final, ends, (ofTokens_correct_prefixes 1 opened).2 (.inr ⟨_, ends, rfl⟩)⟩

end Postfix

end SciCalc
