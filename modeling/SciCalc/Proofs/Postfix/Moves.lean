/-
# SciCalc.Proofs.Postfix.Moves -- what one token does to a yard

`Yard.Moves` lists, one rule for each kind of token, the moves of the reader;
`Yard.step_eq_ok_iff` says that they are exactly the steps that succeed.  What a
closing parenthesis does to the two shapes of a waiting list is said by
`Yard.close_group` and `Yard.close_call`.

A property that every move keeps holds after a run (`Yard.scan_induction`).
`Pending.Carries` is the one condition on what waits that both directions of the
grammar theorem share: a phrase can be read on top of it.
-/
import SciCalc.Postfix.Yard
import SciCalc.Proofs.Grammar

namespace SciCalc

set_option autoImplicit false

namespace Postfix

namespace Pending

/-- The number of groups among what waits. -/
def groups (w : List Pending) : Nat := w.countP isGroup

@[simp] theorem groups_nil : groups [] = 0 := rfl

@[simp] theorem groups_cons_group (w : List Pending) : groups (.group :: w) = groups w + 1 :=
  List.countP_cons_of_pos rfl

theorem groups_cons_of_not_group {p : Pending} (w : List Pending) (loose : p.isGroup = false) :
    groups (p :: w) = groups w := by
  simp [groups, loose]

@[simp] theorem groups_cons_call (f : Func) (w : List Pending) :
    groups (.call f :: w) = groups w :=
  groups_cons_of_not_group w rfl

@[simp] theorem groups_cons_negate (w : List Pending) : groups (.negate :: w) = groups w :=
  groups_cons_of_not_group w rfl

@[simp] theorem groups_cons_operator (o : Operator) (w : List Pending) :
    groups (.operator o :: w) = groups w :=
  groups_cons_of_not_group w rfl

theorem groups_append_of_not_group {held : List Pending} (w : List Pending)
    (loose : ∀ p ∈ held, p.isGroup = false) : groups (held ++ w) = groups w := by
  have none : held.countP isGroup = 0 := List.countP_eq_zero.2 fun p member => by
    simp [loose p member]
  rw [groups, List.countP_append, none, Nat.zero_add, groups]

theorem precedence_le (p : Pending) : p.precedence ≤ 4 := by
  cases p with
  | operator o => exact Nat.le_trans o.precedence_le (by decide)
  | _ => simp [precedence]

/-- Precedence alone decides what an operator releases, groups and calls having none. -/
theorem yields_iff (o : Operator) (p : Pending) :
    p.yields o = true ↔ o.precedence ≤ p.precedence := by
  have positive := o.precedence_pos
  cases p with
  | group => simp [yields, precedence, Nat.ne_of_gt positive]
  | call f => simp [yields, precedence, Nat.ne_of_gt positive]
  | negate => exact decide_eq_true_iff
  | operator o' => exact decide_eq_true_iff

theorem isGroup_eq_false_of_precedence {p : Pending} (binds : 1 ≤ p.precedence) :
    p.isGroup = false := by
  cases p with
  | group => simp [precedence] at binds
  | _ => rfl

/-- A phrase of category `c` can stand on top of `w`: no function waits right there for its
parenthesis, and no operator of the phrase would release what waits. -/
def Carries (c : Category) (w : List Pending) : Prop :=
  ∀ p ∈ w.head?, (∀ f, p ≠ .call f) ∧ (p.precedence < c.level ∨ 4 ≤ c.level)

theorem carries_nil (c : Category) : Carries c [] := by simp [Carries]

theorem carries_group (c : Category) (w : List Pending) : Carries c (.group :: w) := by
  have positive := c.level_pos
  simp [Carries, precedence]
  omega

theorem Carries.bare {c : Category} {w : List Pending} (carries : Carries c w) (f : Func) :
    w.head? ≠ some (.call f) :=
  fun call => (carries _ call).1 f rfl

theorem Carries.of_level_le {c d : Category} {w : List Pending} (carries : Carries c w)
    (tighter : c.level ≤ d.level) : Carries d w := by
  intro p member
  obtain ⟨notCall, binds⟩ := carries p member
  exact ⟨notCall, by omega⟩

/-- Anything that is no call carries a phrase without operators of its own. -/
theorem carries_of_bare {c : Category} {w : List Pending} (tight : 4 ≤ c.level)
    (bare : ∀ f, w.head? ≠ some (.call f)) : Carries c w :=
  fun _ member => ⟨fun f call => bare f (call ▸ member), .inr tight⟩

/-- An operator of the phrase releases nothing below it. -/
theorem Carries.not_yields {o : Operator} {w : List Pending} (carries : Carries o.left w) :
    ∀ p ∈ w.head?, p.yields o = false := by
  intro p member
  obtain ⟨-, binds⟩ := carries p member
  rw [o.level_left] at binds
  have low := o.precedence_le
  rw [Bool.eq_false_iff, Ne, yields_iff]
  omega

end Pending

namespace Yard

variable {maxNesting : Nat}

/-! ## The moves -/

/-- The yard before and after a token, `next` being the token after it. -/
inductive Moves (maxNesting : Nat) (y : Yard) (next : Option Token) : Token → Yard → Prop
  | number (v : Float) (due : y.afterValue = false) :
      Moves maxNesting y next (.number v) (y.emit (.number v))
  | call (f : Func) (due : y.afterValue = false) (opens : next = some .openGroup) :
      Moves maxNesting y next (.name f.name) (y.await (.call f))
  | openGroup (due : y.afterValue = false) (fits : y.depth + 1 ≤ maxNesting) :
      Moves maxNesting y next .openGroup { y.await .group with depth := y.depth + 1 }
  | closeGroup (z : Yard) (complete : y.afterValue = true) (closed : y.close = .ok z) :
      Moves maxNesting y next .closeGroup z
  | factorial (complete : y.afterValue = true) :
      Moves maxNesting y next .factorial (y.emit .factorial)
  | negate (due : y.afterValue = false) :
      Moves maxNesting y next .negate (y.await .negate)
  | minus (due : y.afterValue = false) :
      Moves maxNesting y next (.operator .sub) (y.await .negate)
  | operator (o : Operator) (complete : y.afterValue = true) :
      Moves maxNesting y next (.operator o) ((y.release (Pending.yields o)).await (.operator o))

theorem Moves.step {y z : Yard} {next : Option Token} {t : Token}
    (moves : Moves maxNesting y next t z) : y.step maxNesting t next = .ok z := by
  cases moves with
  | number v due => simp [Yard.step, due]
  | call f due opens => simp [Yard.step, Func.ofName?_name, due, opens]
  | openGroup due fits => simp [Yard.step, due, Nat.not_lt.2 fits]
  | closeGroup _ complete closed => simp [Yard.step, complete, closed]
  | factorial complete => simp [Yard.step, complete]
  | negate due => simp [Yard.step, due]
  | minus due => simp [Yard.step, due]
  | operator o complete => simp [Yard.step, complete]

theorem moves_of_step {y z : Yard} {next : Option Token} {t : Token}
    (stepped : y.step maxNesting t next = .ok z) : Moves maxNesting y next t z := by
  cases after : y.afterValue with
  | false =>
      cases t with
      | number v =>
          simp only [Yard.step, after, Bool.false_eq_true, if_false, Except.ok.injEq] at stepped
          exact stepped ▸ .number v after
      | name w =>
          cases known : Func.ofName? w with
          | none => simp [Yard.step, known] at stepped
          | some f =>
              obtain rfl := (Func.ofName?_eq_some_iff w f).1 known
              simp only [Yard.step, known, after, Bool.false_eq_true, if_false] at stepped
              split at stepped
              · rename_i opens
                exact Except.ok.inj stepped ▸ .call f after opens
              · cases stepped
      | operator o =>
          simp only [Yard.step, after, Bool.false_eq_true, if_false] at stepped
          split at stepped
          · rename_i isSub
            subst isSub
            exact Except.ok.inj stepped ▸ .minus after
          · cases stepped
      | factorial => simp [Yard.step, after] at stepped
      | negate =>
          simp only [Yard.step, after, Bool.false_eq_true, if_false, Except.ok.injEq] at stepped
          exact stepped ▸ .negate after
      | openGroup =>
          simp only [Yard.step, after, Bool.false_eq_true, if_false] at stepped
          split at stepped
          · cases stepped
          · rename_i fits
            exact Except.ok.inj stepped ▸ .openGroup after (Nat.not_lt.1 fits)
      | closeGroup => simp [Yard.step, after] at stepped
  | true =>
      cases t with
      | number v => simp [Yard.step, after] at stepped
      | name w => cases known : Func.ofName? w <;> simp [Yard.step, known, after] at stepped
      | operator o =>
          simp only [Yard.step, after, if_true, Except.ok.injEq] at stepped
          exact stepped ▸ .operator o after
      | factorial =>
          simp only [Yard.step, after, if_true, Except.ok.injEq] at stepped
          exact stepped ▸ .factorial after
      | negate => simp [Yard.step, after] at stepped
      | openGroup => simp [Yard.step, after] at stepped
      | closeGroup =>
          simp only [Yard.step, after, if_true] at stepped
          exact .closeGroup z after stepped

/-- **The moves are the steps that succeed.** -/
theorem step_eq_ok_iff {y z : Yard} {next : Option Token} {t : Token} :
    y.step maxNesting t next = .ok z ↔ Moves maxNesting y next t z :=
  ⟨moves_of_step, Moves.step⟩

/-- What a yard is once a group has closed: `below` is what waited under the group. -/
theorem eq_of_close {y z : Yard} (closed : y.close = .ok z) :
    ∃ below, z = { ({ y.release fun p => !p.isGroup with
      waiting := below, depth := y.depth - 1 } : Yard).releaseCall with afterValue := true } := by
  unfold close at closed
  simp only at closed
  split at closed
  · cases closed
  · rename_i below waits
    exact ⟨below, (Except.ok.inj closed).symm⟩

/-- Closing fails only where there is no group to close. -/
theorem failsOnly_close (y : Yard) {allowed : Fault → Prop}
    (unmatched : allowed (.malformed .unmatchedClose)) : FailsOnly allowed y.close := by
  unfold close
  simp only
  split
  · exact .error unmatched
  · exact .ok _

/-- After a token an operand has ended if the token ends one. -/
theorem Moves.afterValue {y z : Yard} {t : Token} {next : Option Token}
    (moves : Moves maxNesting y next t z) : z.afterValue = t.closesValue := by
  cases moves with
  | closeGroup z complete closed =>
      obtain ⟨below, rfl⟩ := eq_of_close closed
      rfl
  | _ => rfl

/-! ## Runs -/

theorem scan_cons_ok {following : Option Token} {y z : Yard} {t : Token} {rest : List Token} :
    scan maxNesting following y (t :: rest) = .ok z ↔
      ∃ x, Moves maxNesting y (rest.head?.or following) t x ∧
        scan maxNesting following x rest = .ok z := by
  simp only [scan, ← step_eq_ok_iff]
  cases y.step maxNesting t (rest.head?.or following) with
  | error fault => simp [bind, Except.bind]
  | ok x => simp [bind, Except.bind]

theorem scan_append_ok {following : Option Token} {y z : Yard} {ts us : List Token} :
    scan maxNesting following y (ts ++ us) = .ok z ↔
      ∃ x, scan maxNesting (us.head?.or following) y ts = .ok x ∧
        scan maxNesting following x us = .ok z := by
  rw [scan_append]
  cases scan maxNesting (us.head?.or following) y ts with
  | error fault => simp [Except.bind]
  | ok x => simp [Except.bind]

/-- **What every move keeps, a run keeps.**  `P y ts next` speaks of the yard `y` after the tokens
`ts`, with `next` the token to come. -/
theorem scan_induction (P : Yard → List Token → Option Token → Prop)
    (keeps : ∀ y ts t next z, P y ts (some t) → Moves maxNesting y next t z → P z (ts ++ [t]) next)
    {following : Option Token} {y z : Yard} {ts us : List Token}
    (before : P y ts (us.head?.or following)) (run : scan maxNesting following y us = .ok z) :
    P z (ts ++ us) following := by
  induction us generalizing y ts with
  | nil =>
      cases run
      simpa using before
  | cons t rest ih =>
      obtain ⟨x, moves, run⟩ := scan_cons_ok.1 run
      have := ih (keeps y ts t _ x (by simpa using before) moves) run
      simpa using this

/-! ## Releasing -/

/-- Releasing takes exactly what is ready above something that is not. -/
theorem release_eq {y : Yard} (ready : Pending → Bool) {held w : List Pending}
    (waits : y.waiting = held ++ w) (isReady : ∀ p ∈ held, ready p = true)
    (stops : ∀ p ∈ w.head?, ready p = false) :
    y.release ready =
      { y with emitted := (held.map Pending.token).reverse ++ y.emitted, waiting := w } := by
  have taken : w.takeWhile ready = [] := by
    cases w with
    | nil => rfl
    | cons p w => simp [stops p (by simp)]
  have left : w.dropWhile ready = w := by
    cases w with
    | nil => rfl
    | cons p w => simp [stops p (by simp)]
  simp only [release, waits, List.takeWhile_append_of_pos isReady, taken,
    List.dropWhile_append_of_pos isReady, left, List.append_nil]

/-- Closing the group of a parenthesis that no function waits under. -/
theorem close_group {y : Yard} {held w : List Pending} (waits : y.waiting = held ++ .group :: w)
    (loose : ∀ p ∈ held, p.isGroup = false) (bare : ∀ f, w.head? ≠ some (.call f)) :
    y.close = .ok ⟨(held.map Pending.token).reverse ++ y.emitted, w, true, y.depth - 1⟩ := by
  have released := release_eq (fun p => !p.isGroup) waits
    (fun p member => by simp [loose p member]) (by simp [Pending.isGroup])
  rw [close, released]
  cases w with
  | nil => rfl
  | cons p w =>
      cases p with
      | call f => exact absurd rfl (bare f)
      | _ => rfl

/-- Closing the group of a call. -/
theorem close_call {y : Yard} {held w : List Pending} {f : Func}
    (waits : y.waiting = held ++ .group :: .call f :: w)
    (loose : ∀ p ∈ held, p.isGroup = false) :
    y.close = .ok
      ⟨.name f.name :: ((held.map Pending.token).reverse ++ y.emitted), w, true, y.depth - 1⟩ := by
  have released := release_eq (fun p => !p.isGroup) waits
    (fun p member => by simp [loose p member]) (by simp [Pending.isGroup])
  rw [close, released]
  rfl

/-- What a closing parenthesis finds: the group it closes, nothing but operators above it. -/
theorem exists_of_close {y z : Yard} (closed : y.close = .ok z) :
    ∃ held w, y.waiting = held ++ .group :: w ∧ ∀ p ∈ held, p.isGroup = false := by
  have split := List.takeWhile_append_dropWhile (p := fun p : Pending => !p.isGroup)
    (l := y.waiting)
  refine ⟨y.waiting.takeWhile fun p => !p.isGroup, ?_⟩
  cases below : y.waiting.dropWhile fun p => !p.isGroup with
  | nil => simp [close, release, below] at closed
  | cons p w =>
      have stops := List.head?_dropWhile_not (fun p : Pending => !p.isGroup) y.waiting
      simp only [below, List.head?_cons] at stops
      cases p with
      | group =>
          refine ⟨w, by rw [← below, split], fun p member => ?_⟩
          simpa using List.all_eq_true.1 List.all_takeWhile p member
      | _ => simp [Pending.isGroup] at stops

end Yard

end Postfix

end SciCalc
