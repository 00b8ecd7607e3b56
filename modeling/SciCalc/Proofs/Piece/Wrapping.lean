/-
# SciCalc.Proofs.Piece.Wrapping -- root signs inside a larger entry

`Piece.wrapFrom` carries the number of open groups and the parentheses owed at
the close of some of them.  Pieces inside a larger entry are read with the
nesting of what stands around them below their own (`Nesting.shift`).  That the
outer part stays untouched rests on two properties of what is written:

* it is balanced, so no group around the pieces is left inside them;
* every square root is applied to a group (`Piece.Applied`), so parentheses are
  owed only by groups that the pieces open.

Such pieces are met in good order (`Piece.InOrder`, with one rule for each way in
which the pass goes on).  They are wrapped inside as they are alone
(`Piece.InOrder.wrapFrom_shift`), and `Piece.Wraps` says so without the nesting.
-/
import Mathlib.Algebra.GroupWithZero.Nat
import SciCalc.Proofs.Piece.Writing

namespace SciCalc

set_option autoImplicit false

namespace Paren

theorem depthAfter_replicate_opens (n k : Nat) (rest : List Paren) :
    depthAfter n (List.replicate k opens ++ rest) = depthAfter (n + k) rest := by
  induction k generalizing n with
  | zero => rfl
  | succ k ih =>
      rw [List.replicate_succ, List.cons_append, depthAfter_opens, ih, Nat.add_assoc,
        Nat.add_comm 1 k]

theorem depthAfter_replicate_closes (n k : Nat) (rest : List Paren) :
    depthAfter (n + k) (List.replicate k closes ++ rest) = depthAfter n rest := by
  induction k with
  | zero => rfl
  | succ k ih => exact ih

end Paren

namespace Piece

open Paren

/-! ## The nesting -/

namespace Nesting

/-- The nesting inside another: the outer groups lie below. -/
def shift (outer n : Nesting) : Nesting :=
  ⟨outer.depth + n.depth, n.owed.map (fun o => (outer.depth + o.1, o.2)) ++ outer.owed⟩

/-- Nothing is owed at the close of a group about to be opened. -/
def Settled (n : Nesting) : Prop := ∀ o ∈ n.owed.head?, o.1 < n.depth

/-- Parentheses are owed at the close of open groups, each once. -/
def Ordered (n : Nesting) : Prop := (n.depth :: n.owed.map Prod.fst).Pairwise (· > ·)

/-- The number of parentheses that are open in what has been written. -/
def written (n : Nesting) : Nat := n.depth + (n.owed.map Prod.snd).sum

theorem settled_start : Settled {} := by simp [Settled]

theorem ordered_start : Ordered {} := by simp [Ordered]

theorem Settled.enter {n : Nesting} (settled : n.Settled) : n.enter.Settled := by
  intro o first
  exact Nat.lt_succ_of_lt (settled o first)

theorem Settled.owe_enter {n : Nesting} (settled : n.Settled) (count : Nat) :
    (n.owe count).enter.Settled := by
  unfold owe
  split
  · exact settled.enter
  · simp [Settled, Nesting.enter]

theorem Settled.due_enter {n : Nesting} (settled : n.Settled) : n.enter.due = 0 := by
  unfold due
  cases owes : n.owed with
  | nil => simp [Nesting.enter, owes]
  | cons o owed =>
      have below := settled o (by simp [owes])
      have apart : o.1 ≠ n.depth := by omega
      simp [Nesting.enter, owes, apart]

theorem Settled.leave_enter {n : Nesting} (settled : n.Settled) : n.enter.leave = n := by
  unfold leave
  cases n with
  | mk depth owed =>
      cases owed with
      | nil => simp [Nesting.enter]
      | cons o owed =>
          have below : o.1 < depth := settled o (by simp)
          have apart : o.1 ≠ depth := by omega
          simp [Nesting.enter, apart]

/-- A group that owes `count` parentheses pays them when it is left. -/
theorem Settled.due_owe_enter {n : Nesting} (settled : n.Settled) (count : Nat) :
    (n.owe count).enter.due = count := by
  unfold owe
  split
  · rename_i none
    rw [settled.due_enter, none]
  · simp [due, Nesting.enter]

theorem Settled.leave_owe_enter {n : Nesting} (settled : n.Settled) (count : Nat) :
    (n.owe count).enter.leave = n := by
  unfold owe
  split
  · exact settled.leave_enter
  · simp [leave, Nesting.enter]

theorem Ordered.enter {n : Nesting} (ordered : n.Ordered) : n.enter.Ordered := by
  obtain ⟨below, sorted⟩ := List.pairwise_cons.1 ordered
  exact List.pairwise_cons.2 ⟨fun d member => Nat.lt_succ_of_lt (below d member), sorted⟩

theorem Ordered.owe_enter {n : Nesting} (ordered : n.Ordered) (count : Nat) :
    (n.owe count).enter.Ordered := by
  unfold owe
  split
  · exact ordered.enter
  · obtain ⟨below, -⟩ := List.pairwise_cons.1 ordered
    refine List.pairwise_cons.2 ⟨?_, ordered⟩
    intro d member
    rcases List.mem_cons.1 member with rfl | member
    · exact Nat.lt_succ_self _
    · exact Nat.lt_succ_of_lt (below d member)

@[simp] theorem depth_enter (n : Nesting) : n.enter.depth = n.depth + 1 := rfl

@[simp] theorem depth_owe (n : Nesting) (count : Nat) : (n.owe count).depth = n.depth := by
  unfold owe
  split <;> rfl

@[simp] theorem depth_leave (n : Nesting) : n.leave.depth = n.depth - 1 := by
  unfold leave
  split
  · split
    · assumption
    · rfl
  · rfl

theorem written_enter (n : Nesting) : n.enter.written = n.written + 1 := by
  simp only [written, Nesting.enter]
  omega

theorem written_owe_enter (n : Nesting) (count : Nat) :
    (n.owe count).enter.written = n.written + count + 1 := by
  rw [written_enter]
  unfold owe
  split
  · omega
  · simp only [written, List.map_cons, List.sum_cons]
    omega

/-- Where nothing is open nothing is owed. -/
theorem Ordered.owed_eq_nil {n : Nesting} (ordered : n.Ordered) (outside : n.depth = 0) :
    n.owed = [] := by
  cases owes : n.owed with
  | nil => rfl
  | cons o owed =>
      have below := (List.pairwise_cons.1 ordered).1 o.1 (by simp [owes])
      omega

/-- Something is open in what has been written only inside a group. -/
theorem Ordered.inside {n : Nesting} (ordered : n.Ordered) (opened : n.written ≠ 0) :
    0 < n.depth := by
  apply Nat.pos_of_ne_zero
  intro outside
  apply opened
  rw [written, ordered.owed_eq_nil outside, outside]
  rfl

/-- Leaving a group closes it and pays what is owed. -/
theorem Ordered.leave {n : Nesting} (ordered : n.Ordered) (inside : 0 < n.depth) :
    n.leave.Ordered ∧ n.written = n.leave.written + (n.due + 1) := by
  cases n with
  | mk depth owed =>
      simp only at inside
      cases owed with
      | nil =>
          refine ⟨by simp [Ordered, Nesting.leave], ?_⟩
          simp only [written, Nesting.leave, due, List.map_nil, List.sum_nil]
          omega
      | cons o owed =>
          obtain ⟨below, sorted⟩ := List.pairwise_cons.1 ordered
          have first : o.1 < depth := below o.1 (by simp)
          simp only [Nesting.leave, due]
          by_cases latest : o.1 = depth - 1
          · simp only [if_pos latest]
            refine ⟨sorted, ?_⟩
            simp only [written, List.map_cons, List.sum_cons]
            omega
          · simp only [if_neg latest]
            refine ⟨List.pairwise_cons.2 ⟨?_, sorted⟩, ?_⟩
            · intro d member
              have further : d ≤ o.1 := by
                rcases List.mem_cons.1 member with rfl | member
                · exact Nat.le_refl _
                · exact Nat.le_of_lt ((List.pairwise_cons.1 sorted).1 d member)
              simp only
              omega
            · simp only [written, List.map_cons, List.sum_cons]
              omega

theorem shift_start (outer : Nesting) : outer.shift {} = outer := by
  simp [shift]

theorem shift_enter (outer n : Nesting) : (outer.shift n).enter = outer.shift n.enter := rfl

theorem shift_owe_enter (outer n : Nesting) (count : Nat) :
    ((outer.shift n).owe count).enter = outer.shift (n.owe count).enter := by
  by_cases none : count = 0
  · simp [owe, none, shift_enter]
  · simp [owe, none, shift, Nesting.enter, Nat.add_assoc]

/-- Inside a group of its own a nesting leaves what lies below alone. -/
theorem shift_leave {outer n : Nesting} (settled : outer.Settled) (inside : 0 < n.depth) :
    (outer.shift n).due = n.due ∧ (outer.shift n).leave = outer.shift n.leave := by
  cases n with
  | mk depth owed =>
      simp only at inside
      have deep : outer.depth + depth - 1 = outer.depth + (depth - 1) := by omega
      cases owed with
      | nil =>
          simp only [shift, List.map_nil, List.nil_append, due, Nesting.leave]
          cases owes : outer.owed with
          | nil => exact ⟨rfl, by rw [deep]⟩
          | cons o below =>
              have first := settled o (by simp [owes])
              have apart : o.1 ≠ outer.depth + depth - 1 := by omega
              simp only [if_neg apart]
              exact ⟨trivial, by rw [deep]⟩
      | cons o owed =>
          simp only [shift, List.map_cons, List.cons_append, due, Nesting.leave]
          by_cases latest : o.1 = depth - 1
          · have same : outer.depth + o.1 = outer.depth + depth - 1 := by omega
            simp only [if_pos latest, if_pos same]
            exact ⟨trivial, trivial⟩
          · have apart : outer.depth + o.1 ≠ outer.depth + depth - 1 := by omega
            simp only [if_neg latest, if_neg apart, List.map_cons, List.cons_append]
            exact ⟨trivial, by rw [deep]⟩

end Nesting

/-! ## One piece -/

theorem settle_closing (n : Nesting) : settle n closing = closing :: closeCalls n.due := rfl

theorem settle_of_ne {p : Piece} (noClose : p ≠ closing) (n : Nesting) : settle n p = [p] :=
  if_neg noClose

theorem after_opening (n : Nesting) : n.after opening = n.enter := rfl

theorem after_closing (n : Nesting) : n.after closing = n.leave := rfl

theorem after_of_ne {p : Piece} (noOpen : p ≠ opening) (noClose : p ≠ closing) (n : Nesting) :
    n.after p = n := by
  simp [Nesting.after, noOpen, noClose]

theorem ofPiece_of_ne {p : Piece} (noOpen : p ≠ opening) (noClose : p ≠ closing) :
    Paren.ofPiece p = none := by
  cases p with
  | other c =>
      have notOpen : c ≠ '(' := fun same => noOpen (same ▸ rfl)
      have notClose : c ≠ ')' := fun same => noClose (same ▸ rfl)
      simp [Paren.ofPiece, Paren.ofChar, notOpen, notClose]
  | _ => rfl

theorem ofPiece_of_isDigit {p : Piece} (digit : p.isDigit = true) : Paren.ofPiece p = none := by
  cases p <;> first | rfl | cases digit

theorem ofPiece_of_isConstant {p : Piece} (constant : p.isConstant = true) :
    Paren.ofPiece p = none := by
  cases p <;> first | rfl | cases constant

theorem ne_root_of_isDigit {p : Piece} (digit : p.isDigit = true) : p ≠ root := by
  rintro rfl
  cases digit

/-- A constant is a word. -/
theorem other_of_isConstant {p : Piece} (constant : p.isConstant = true) :
    p ≠ root ∧ ¬ p.isDigit = true := by
  cases p with
  | word w => exact ⟨nofun, nofun⟩
  | _ => cases constant

@[simp] theorem parens_openCalls (k : Nat) : parens (openCalls k) = List.replicate k opens := by
  induction k with
  | zero => rfl
  | succ k ih =>
      rw [openCalls, parens_cons, parens_cons, ih]
      rfl

@[simp] theorem parens_closeCalls (k : Nat) : parens (closeCalls k) = List.replicate k closes := by
  induction k with
  | zero => rfl
  | succ k ih =>
      rw [closeCalls, List.replicate_succ, ← closeCalls, parens_cons, ih]
      rfl

/-- **One piece**, where what is written from it on is balanced: a parenthesis closes only what is
open, and the nesting stays ordered and counts what is open. -/
theorem after_spec {n : Nesting} (ordered : n.Ordered) {p : Piece} {rest : List Paren} {k : Nat}
    (balanced : depthAfter n.written (parens (settle n p) ++ rest) = some k) :
    (p = closing → 0 < n.depth) ∧ (n.after p).Ordered ∧
      depthAfter (n.after p).written rest = some k := by
  by_cases isOpen : p = opening
  · subst isOpen
    rw [after_opening, Nesting.written_enter]
    exact ⟨nofun, ordered.enter, balanced⟩
  by_cases isClose : p = closing
  · subst isClose
    have closed : parens (settle n closing) = List.replicate (n.due + 1) closes := by
      rw [settle_closing, parens_cons, parens_closeCalls]
      rfl
    rw [closed] at balanced
    have opened : n.written ≠ 0 := by
      intro none
      rw [none, List.replicate_succ, List.cons_append, depthAfter_closes_zero] at balanced
      cases balanced
    have inside := ordered.inside opened
    obtain ⟨stays, counts⟩ := ordered.leave inside
    rw [counts, depthAfter_replicate_closes] at balanced
    exact ⟨fun _ => inside, stays, balanced⟩
  · rw [settle_of_ne isClose, parens_cons, ofPiece_of_ne isOpen isClose] at balanced
    rw [after_of_ne isOpen isClose]
    exact ⟨fun same => absurd same isClose, ordered, balanced⟩

/-- A piece that closes nothing below is settled as it is alone. -/
theorem after_shift {outer n : Nesting} (settled : outer.Settled) {p : Piece}
    (inside : p = closing → 0 < n.depth) :
    settle (outer.shift n) p = settle n p ∧ (outer.shift n).after p = outer.shift (n.after p) := by
  by_cases isOpen : p = opening
  · subst isOpen
    exact ⟨rfl, rfl⟩
  by_cases isClose : p = closing
  · subst isClose
    obtain ⟨due, leave⟩ := Nesting.shift_leave settled (inside rfl)
    exact ⟨by rw [settle_closing, settle_closing, due], leave⟩
  · rw [settle_of_ne isClose, settle_of_ne isClose]
    exact ⟨rfl, by rw [after_of_ne isOpen isClose, after_of_ne isOpen isClose]⟩

/-! ## Inside a larger entry -/

/-- Every square root is applied to a group. -/
def Applied (qs : List Piece) : Prop :=
  ∀ before after, qs = before ++ sqrt :: after → after.head? = some opening

theorem Applied.of_append {ps qs : List Piece} (applied : Applied (ps ++ qs)) : Applied qs := by
  intro before after split
  exact applied (ps ++ before) after (by rw [split, List.append_assoc])

theorem Applied.of_cons {p : Piece} {qs : List Piece} (applied : Applied (p :: qs)) : Applied qs :=
  @Applied.of_append [p] qs applied

/-- The parentheses that a phase has opened and will close by itself. -/
def Phase.pending : Phase → Nat
  | .operand more => more + 1
  | _ => 0

/-- Digits under root signs end where no digit follows. -/
theorem wrapFrom_operand {rest : List Piece} (noDigit : ∀ p ∈ rest.head?, p.isDigit = false)
    (more : Nat) (n : Nesting) :
    wrapFrom (.operand more) n rest = closeCalls (more + 1) ++ wrapFrom .plain n rest := by
  cases rest with
  | nil => simp [wrapFrom]
  | cons p rest =>
      have other := noDigit p rfl
      simp [wrapFrom, other]

/-- A numeral that is over before pieces, and before what follows them, is over before both. -/
theorem noDigit_append {ps rest : List Piece} (noDigit : ∀ p ∈ ps.head?, p.isDigit = false)
    (ends : ∀ p ∈ rest.head?, p.isDigit = false) :
    ∀ p ∈ (ps ++ rest).head?, p.isDigit = false := by
  cases ps with
  | nil => exact ends
  | cons p ps => exact noDigit

/-- The last of root signs before a group takes it, and its close pays for the others. -/
theorem wrapFrom_roots_opening (more : Nat) (n : Nesting) (rest : List Piece) :
    wrapFrom (.roots more) n (opening :: rest) =
      openCalls more ++ sqrt :: opening :: wrapFrom .plain (n.owe more).enter rest := by
  rw [wrapFrom, if_neg (show opening ≠ root by decide),
    if_neg (show ¬ opening.isDigit = true by decide),
    if_neg (show ¬ opening.isConstant = true by decide),
    settle_of_ne (show opening ≠ closing by decide), after_opening]
  simp

/-- The operand of a square root, if it is neither a numeral nor a constant, is a group. -/
theorem Applied.opening_of_settle {before rest : List Piece} {n : Nesting} {p : Piece}
    (applied : Applied (before ++ sqrt :: settle n p ++ rest)) : p = opening := by
  have first := applied before (settle n p ++ rest) (by simp)
  by_cases isClose : p = closing
  · subst isClose
    cases first
  · rw [settle_of_ne isClose] at first
    exact Option.some.inj first

/-- Pieces that a pass meets in good order: every root sign has its operand and every group is
closed, those around the pieces being left alone.  One rule for each way in which the pass goes
on. -/
inductive InOrder : Phase → Nesting → List Piece → Prop
  | nil : InOrder .plain {} []
  | sign {n : Nesting} {ps : List Piece} (rest : InOrder (.roots 0) n ps) :
      InOrder .plain n (root :: ps)
  | piece {n : Nesting} {p : Piece} {ps : List Piece} (noRoot : p ≠ root)
      (inside : p = closing → 0 < n.depth) (rest : InOrder .plain (n.after p) ps) :
      InOrder .plain n (p :: ps)
  | another {more : Nat} {n : Nesting} {ps : List Piece}
      (rest : InOrder (.roots (more + 1)) n ps) : InOrder (.roots more) n (root :: ps)
  | digits {more : Nat} {n : Nesting} {p : Piece} {ps : List Piece} (digit : p.isDigit = true)
      (rest : InOrder (.operand more) n ps) : InOrder (.roots more) n (p :: ps)
  | constant {more : Nat} {n : Nesting} {p : Piece} {ps : List Piece}
      (constant : p.isConstant = true) (rest : InOrder .plain n ps) :
      InOrder (.roots more) n (p :: ps)
  | group {more : Nat} {n : Nesting} {ps : List Piece}
      (rest : InOrder .plain (n.owe more).enter ps) : InOrder (.roots more) n (opening :: ps)
  | digit {more : Nat} {n : Nesting} {p : Piece} {ps : List Piece} (digit : p.isDigit = true)
      (rest : InOrder (.operand more) n ps) : InOrder (.operand more) n (p :: ps)
  | ended {more : Nat} {n : Nesting} {ps : List Piece}
      (noDigit : ∀ p ∈ ps.head?, p.isDigit = false) (rest : InOrder .plain n ps) :
      InOrder (.operand more) n ps

/-- Where nothing is open the pieces may end. -/
theorem inOrder_nil {n : Nesting} (ordered : n.Ordered) (nothing : n.written = 0) :
    InOrder .plain n [] := by
  obtain ⟨depth, owed⟩ := n
  obtain rfl : depth = 0 := by
    simp only [Nesting.written] at nothing
    omega
  obtain rfl : owed = [] := ordered.owed_eq_nil rfl
  exact .nil

/-- **Pieces are in good order** if what is written for them is balanced and applies every square
root to a group. -/
theorem inOrder_of_wrapFrom (ps : List Piece) (phase : Phase) (n : Nesting) (ordered : n.Ordered)
    (applied : Applied (wrapFrom phase n ps))
    (balanced : depthAfter (n.written + phase.pending) (parens (wrapFrom phase n ps)) = some 0) :
    InOrder phase n ps := by
  -- digits under root signs that are over leave what is read with no root sign before it
  have ended {more : Nat} {n : Nesting} {ps : List Piece}
      (noDigit : ∀ p ∈ ps.head?, p.isDigit = false)
      (applied : Applied (wrapFrom (.operand more) n ps))
      (balanced : depthAfter (n.written + (more + 1))
        (parens (wrapFrom (.operand more) n ps)) = some 0) :
      Applied (wrapFrom .plain n ps) ∧
        depthAfter n.written (parens (wrapFrom .plain n ps)) = some 0 := by
    rw [wrapFrom_operand noDigit] at applied balanced
    rw [parens_append, parens_closeCalls, depthAfter_replicate_closes] at balanced
    exact ⟨applied.of_append, balanced⟩
  induction ps generalizing phase n with
  | nil =>
      cases phase with
      | plain => exact inOrder_nil ordered (Option.some.inj balanced)
      | roots more => cases applied (openCalls more) [] rfl
      | operand more =>
          have noDigit : ∀ p ∈ ([] : List Piece).head?, p.isDigit = false := by simp
          obtain ⟨-, nothing⟩ := ended noDigit applied balanced
          exact .ended noDigit (inOrder_nil ordered (Option.some.inj nothing))
  | cons p ps ih =>
      have plain (applied : Applied (wrapFrom .plain n (p :: ps)))
          (balanced : depthAfter n.written (parens (wrapFrom .plain n (p :: ps))) = some 0) :
          InOrder .plain n (p :: ps) := by
        by_cases isRoot : p = root
        · simp only [wrapFrom, if_pos isRoot] at applied balanced
          rw [isRoot]
          exact .sign (ih (.roots 0) n ordered applied balanced)
        · simp only [wrapFrom, if_neg isRoot] at applied balanced
          rw [parens_append] at balanced
          obtain ⟨inside, stays, counts⟩ := after_spec ordered balanced
          exact .piece isRoot inside (ih .plain (n.after p) stays applied.of_append counts)
      cases phase with
      | plain => exact plain applied balanced
      | roots more =>
          by_cases isRoot : p = root
          · simp only [wrapFrom, if_pos isRoot] at applied balanced
            rw [isRoot]
            exact .another (ih (.roots (more + 1)) n ordered applied balanced)
          by_cases isDigit : p.isDigit = true
          · simp only [wrapFrom, if_neg isRoot, if_pos isDigit] at applied balanced
            rw [parens_append, parens_openCalls, depthAfter_replicate_opens, parens_cons,
              ofPiece_of_isDigit isDigit] at balanced
            exact .digits isDigit
              (ih (.operand more) n ordered applied.of_append.of_cons balanced)
          by_cases isConstant : p.isConstant = true
          · simp only [wrapFrom, if_neg isRoot, if_neg isDigit, if_pos isConstant]
              at applied balanced
            rw [parens_append, parens_append, parens_openCalls, parens_cons,
              ofPiece_of_isConstant isConstant, parens_closeCalls, List.append_assoc,
              depthAfter_replicate_opens] at balanced
            have counts := (depthAfter_replicate_closes n.written (more + 1) _).symm.trans balanced
            exact .constant isConstant (ih .plain n ordered applied.of_append counts)
          · -- the last sign takes the group that follows, which pays for the signs before it
            simp only [wrapFrom, if_neg isRoot, if_neg isDigit, if_neg isConstant]
              at applied balanced
            obtain rfl := applied.opening_of_settle
            have opened : parens (settle (n.owe more) opening) = [opens] := rfl
            rw [parens_append, parens_append, parens_openCalls, parens_cons, opened,
              List.append_assoc, depthAfter_replicate_opens] at balanced
            have counts : depthAfter (n.owe more).enter.written
                (parens (wrapFrom .plain (n.owe more).enter ps)) = some 0 := by
              rw [Nesting.written_owe_enter]
              exact balanced
            exact .group (ih .plain _ (ordered.owe_enter more) applied.of_append counts)
      | operand more =>
          by_cases isDigit : p.isDigit = true
          · simp only [wrapFrom, if_pos isDigit] at applied balanced
            rw [parens_cons, ofPiece_of_isDigit isDigit] at balanced
            exact .digit isDigit (ih (.operand more) n ordered applied.of_cons balanced)
          · have noDigit : ∀ q ∈ (p :: ps).head?, q.isDigit = false := by simpa using isDigit
            obtain ⟨applied, balanced⟩ := ended noDigit applied balanced
            exact .ended noDigit (plain applied balanced)

theorem inOrder_of_wrapRoots {ps : List Piece} (applied : Applied (wrapRoots ps))
    (balanced : depthAfter 0 (parens (wrapRoots ps)) = some 0) : InOrder .plain {} ps :=
  inOrder_of_wrapFrom ps .plain {} Nesting.ordered_start applied balanced

/-- **Pieces in good order are wrapped inside a larger entry as they are alone.** -/
theorem InOrder.wrapFrom_shift {phase : Phase} {n : Nesting} {ps : List Piece}
    (inOrder : InOrder phase n ps) {outer : Nesting} (settled : outer.Settled) {rest : List Piece}
    (noDigit : ∀ p ∈ rest.head?, p.isDigit = false) :
    wrapFrom phase (outer.shift n) (ps ++ rest) =
      wrapFrom phase n ps ++ wrapFrom .plain outer rest := by
  induction inOrder with
  | nil =>
      rw [outer.shift_start]
      rfl
  | sign _ ih =>
      simp only [List.cons_append, wrapFrom, if_true]
      exact ih
  | piece noRoot inside _ ih =>
      obtain ⟨settles, goes⟩ := after_shift settled inside
      simp only [List.cons_append, wrapFrom, if_neg noRoot]
      rw [settles, goes, ih, List.append_assoc]
  | another _ ih =>
      simp only [List.cons_append, wrapFrom, if_true]
      exact ih
  | digits digit _ ih =>
      simp only [List.cons_append, wrapFrom, if_neg (ne_root_of_isDigit digit), if_pos digit]
      rw [ih, List.append_assoc, List.cons_append]
  | constant constant _ ih =>
      obtain ⟨noRoot, other⟩ := other_of_isConstant constant
      simp only [List.cons_append, wrapFrom, if_neg noRoot, if_neg other, if_pos constant]
      rw [ih, ← List.append_assoc]
  | group _ ih =>
      rw [List.cons_append, wrapFrom_roots_opening, wrapFrom_roots_opening,
        Nesting.shift_owe_enter, ih]
      simp
  | digit digit _ ih =>
      simp only [List.cons_append, wrapFrom, if_pos digit]
      rw [ih]
  | ended ends _ ih =>
      rw [wrapFrom_operand ends, wrapFrom_operand (noDigit_append ends noDigit), ih,
        List.append_assoc]

/-! ## Wrapping without the nesting -/

/-- Pieces that are wrapped in the same way wherever they stand, a numeral being over at their
end. -/
def Wraps (ps qs : List Piece) : Prop :=
  ∀ n : Nesting, n.Settled → ∀ rest : List Piece, (∀ p ∈ rest.head?, p.isDigit = false) →
    wrapFrom .plain n (ps ++ rest) = qs ++ wrapFrom .plain n rest

theorem Wraps.wrapRoots {ps qs : List Piece} (wraps : Wraps ps qs) : wrapRoots ps = qs := by
  have alone := wraps {} Nesting.settled_start [] (by simp)
  rw [List.append_nil] at alone
  rw [Piece.wrapRoots, alone]
  exact List.append_nil qs

/-- **Pieces in good order are wrapped alike everywhere.** -/
theorem InOrder.wraps {ps : List Piece} (inOrder : InOrder .plain {} ps) :
    Wraps ps (Piece.wrapRoots ps) := by
  intro n settled rest noDigit
  have shifted := inOrder.wrapFrom_shift settled noDigit
  rw [n.shift_start] at shifted
  exact shifted

theorem Wraps.append {ps qs ps' qs' : List Piece} (first : Wraps ps qs) (second : Wraps ps' qs')
    (noDigit : ∀ p ∈ ps'.head?, p.isDigit = false) : Wraps (ps ++ ps') (qs ++ qs') := by
  intro n settled rest ends
  rw [List.append_assoc, first n settled _ (noDigit_append noDigit ends),
    second n settled rest ends, List.append_assoc]

/-- What holds of the pieces but for root signs, of the square root and of parentheses holds of
what is written. -/
theorem forall_wrapFrom {P : Piece → Prop} (ofSqrt : P sqrt) (ofOpening : P opening)
    (ofClosing : P closing) {ps : List Piece} (all : ∀ p ∈ ps, p ≠ root → P p) (phase : Phase)
    (n : Nesting) : ∀ p ∈ wrapFrom phase n ps, P p := by
  have opens (k : Nat) : ∀ p ∈ openCalls k, P p := by
    induction k with
    | zero => simp [openCalls]
    | succ k ih => simpa [openCalls] using ⟨ofSqrt, ofOpening, ih⟩
  have closes (k : Nat) : ∀ p ∈ closeCalls k, P p := by
    intro p member
    rw [List.eq_of_mem_replicate member]
    exact ofClosing
  have settles (n : Nesting) {p : Piece} (holds : P p) : ∀ q ∈ settle n p, P q := by
    unfold settle
    split
    · exact List.forall_mem_cons.2 ⟨ofClosing, closes n.due⟩
    · simpa using holds
  induction ps generalizing phase n with
  | nil =>
      cases phase with
      | plain => simp [wrapFrom]
      | roots more => exact List.forall_mem_append.2 ⟨opens more, by simpa using ofSqrt⟩
      | operand more => exact closes (more + 1)
  | cons p ps ih =>
      obtain ⟨first, others⟩ := List.forall_mem_cons.1 all
      have goesOn := ih others
      have plain (n : Nesting) (holds : P p) :
          ∀ q ∈ settle n p ++ wrapFrom .plain (n.after p) ps, P q :=
        List.forall_mem_append.2 ⟨settles n holds, goesOn .plain _⟩
      cases phase with
      | plain =>
          unfold wrapFrom
          split
          · exact goesOn _ n
          · rename_i noRoot
            exact plain n (first noRoot)
      | roots more =>
          unfold wrapFrom
          split
          · exact goesOn _ n
          rename_i noRoot
          have holds := first noRoot
          split
          · exact List.forall_mem_append.2
              ⟨opens _, List.forall_mem_cons.2 ⟨holds, goesOn _ n⟩⟩
          split
          · exact List.forall_mem_append.2 ⟨List.forall_mem_append.2
              ⟨opens _, List.forall_mem_cons.2 ⟨holds, closes _⟩⟩, goesOn _ n⟩
          · rw [List.append_assoc]
            exact List.forall_mem_append.2
              ⟨opens more, List.forall_mem_cons.2 ⟨ofSqrt, plain (n.owe more) holds⟩⟩
      | operand more =>
          unfold wrapFrom
          split
          · rename_i isDigit
            exact List.forall_mem_cons.2 ⟨first (ne_root_of_isDigit isDigit), goesOn _ n⟩
          · refine List.forall_mem_append.2 ⟨closes _, ?_⟩
            split
            · exact goesOn _ n
            · rename_i noRoot
              exact plain n (first noRoot)

theorem mem_settle (n : Nesting) (p : Piece) : p ∈ settle n p := by
  unfold settle
  split
  · rename_i isClose
    simp [isClose]
  · simp

/-- **Wrapping drops nothing but root signs.** -/
theorem mem_wrapFrom {p : Piece} (noRoot : p ≠ root) {ps : List Piece} (member : p ∈ ps)
    (phase : Phase) (n : Nesting) : p ∈ wrapFrom phase n ps := by
  induction ps generalizing phase n with
  | nil => cases member
  | cons q ps ih =>
      have settled (n : Nesting) : p ∈ settle n q ++ wrapFrom .plain (n.after q) ps := by
        rcases List.mem_cons.1 member with rfl | later
        · exact List.mem_append_left _ (mem_settle n p)
        · exact List.mem_append_right _ (ih later .plain _)
      have kept (phase : Phase) : p = q ∨ p ∈ wrapFrom phase n ps := by
        rcases List.mem_cons.1 member with same | later
        · exact .inl same
        · exact .inr (ih later phase n)
      have goesOn (phase : Phase) (isRoot : q = root) : p ∈ wrapFrom phase n ps :=
        (kept phase).resolve_left fun same => noRoot (same.trans isRoot)
      cases phase with
      | plain =>
          unfold wrapFrom
          split
          · exact goesOn _ ‹_›
          · exact settled n
      | roots more =>
          unfold wrapFrom
          split
          · exact goesOn _ ‹_›
          split
          · exact List.mem_append_right _ (List.mem_cons.2 (kept _))
          split
          · rcases kept .plain with same | later
            · simp [same]
            · exact List.mem_append_right _ later
          · rw [List.append_assoc]
            exact List.mem_append_right _ (List.mem_cons_of_mem _ (settled _))
      | operand more =>
          unfold wrapFrom
          split
          · exact List.mem_cons.2 (kept _)
          · refine List.mem_append_right _ ?_
            split
            · exact goesOn _ ‹_›
            · exact settled n

/-- A piece that is neither a root sign nor a parenthesis stays. -/
theorem wraps_cons {p : Piece} (noRoot : p ≠ root) (noOpen : p ≠ opening) (noClose : p ≠ closing)
    {ps qs : List Piece} (wraps : Wraps ps qs) : Wraps (p :: ps) (p :: qs) := by
  intro n settled rest ends
  simp only [List.cons_append, wrapFrom, if_neg noRoot]
  rw [settle_of_ne noClose, after_of_ne noOpen noClose, wraps n settled rest ends]
  rfl

theorem wraps_nil : Wraps [] [] := fun _ _ _ _ => rfl

/-- A group is wrapped as a group of what it holds, whatever follows it. -/
theorem Wraps.wrapFrom_group {ps qs : List Piece} (wraps : Wraps ps qs) {n : Nesting}
    (settled : n.Settled) (rest : List Piece) :
    wrapFrom .plain n (opening :: ps ++ closing :: rest) =
      opening :: qs ++ closing :: wrapFrom .plain n rest := by
  have inner := wraps n.enter settled.enter (closing :: rest) (by simp [closing, isDigit])
  have outer : wrapFrom .plain n.enter (closing :: rest) = closing :: wrapFrom .plain n rest := by
    simp only [wrapFrom, if_neg (show closing ≠ root by decide)]
    rw [settle_closing, settled.due_enter, after_closing, settled.leave_enter]
    rfl
  simp only [List.cons_append, wrapFrom, if_neg (show opening ≠ root by decide)]
  rw [after_opening, inner, outer]
  rfl

theorem Wraps.group {ps qs : List Piece} (wraps : Wraps ps qs) :
    Wraps (opening :: ps ++ [closing]) (opening :: qs ++ [closing]) := by
  intro n settled rest _
  have whole := wraps.wrapFrom_group settled rest
  simpa using whole

theorem wrapFrom_replicate_root (more k : Nat) (n : Nesting) (rest : List Piece) :
    wrapFrom (.roots more) n (List.replicate k root ++ rest) =
      wrapFrom (.roots (more + k)) n rest := by
  induction k generalizing more with
  | zero => rfl
  | succ k ih =>
      have further : wrapFrom (.roots more) n (root :: (List.replicate k root ++ rest)) =
          wrapFrom (.roots (more + 1)) n (List.replicate k root ++ rest) := by
        simp only [wrapFrom, if_true]
      rw [List.replicate_succ, List.cons_append, further, ih, Nat.add_assoc, Nat.add_comm 1 k]

theorem wrapFrom_plain_roots (more : Nat) (n : Nesting) (rest : List Piece) :
    wrapFrom .plain n (List.replicate (more + 1) root ++ rest) =
      wrapFrom (.roots more) n rest := by
  rw [List.replicate_succ, List.cons_append, wrapFrom, if_pos rfl, wrapFrom_replicate_root,
    Nat.zero_add]

/-- Root signs before a group are calls around it, whatever follows the group. -/
theorem Wraps.wrapFrom_roots {ps qs : List Piece} (wraps : Wraps ps qs) (more : Nat) {n : Nesting}
    (settled : n.Settled) (rest : List Piece) :
    wrapFrom .plain n (List.replicate (more + 1) root ++ (opening :: ps ++ closing :: rest)) =
      openCalls more ++ sqrt :: (opening :: qs ++ closing :: closeCalls more) ++
        wrapFrom .plain n rest := by
  have inner := wraps (n.owe more).enter (settled.owe_enter more) (closing :: rest)
    (by simp [closing, isDigit])
  have outer : wrapFrom .plain (n.owe more).enter (closing :: rest) =
      closing :: closeCalls more ++ wrapFrom .plain n rest := by
    rw [wrapFrom, if_neg (show closing ≠ root by decide), settle_closing,
      settled.due_owe_enter, after_closing, settled.leave_owe_enter]
  rw [wrapFrom_plain_roots, List.cons_append, wrapFrom_roots_opening, inner, outer]
  simp

theorem Wraps.roots {ps qs : List Piece} (wraps : Wraps ps qs) (more : Nat) :
    Wraps (List.replicate (more + 1) root ++ (opening :: ps ++ [closing]))
      (openCalls more ++ sqrt :: (opening :: qs ++ closing :: closeCalls more)) := by
  intro n settled rest _
  have whole := wraps.wrapFrom_roots more settled rest
  simpa using whole

/-- Root signs before a numeral are calls around it. -/
theorem wrapFrom_roots_digits (more : Nat) (n : Nesting) {ds rest : List Piece} (some : ds ≠ [])
    (digits : ∀ p ∈ ds, p.isDigit = true) (noDigit : ∀ p ∈ rest.head?, p.isDigit = false) :
    wrapFrom .plain n (List.replicate (more + 1) root ++ (ds ++ rest)) =
      openCalls (more + 1) ++ ds ++ closeCalls (more + 1) ++ wrapFrom .plain n rest := by
  have inside (ds : List Piece) (digits : ∀ p ∈ ds, p.isDigit = true) :
      wrapFrom (.operand more) n (ds ++ rest) =
        ds ++ closeCalls (more + 1) ++ wrapFrom .plain n rest := by
    induction ds with
    | nil => exact wrapFrom_operand noDigit more n
    | cons d ds ih =>
        obtain ⟨first, others⟩ := List.forall_mem_cons.1 digits
        rw [List.cons_append, wrapFrom, if_pos first, ih others]
        rfl
  obtain ⟨d, ds, rfl⟩ := List.exists_cons_of_ne_nil some
  obtain ⟨first, others⟩ := List.forall_mem_cons.1 digits
  rw [wrapFrom_plain_roots, List.cons_append, wrapFrom, if_neg (ne_root_of_isDigit first),
    if_pos first, inside ds others]
  simp

/-- Root signs before a constant are calls around it. -/
theorem wrapFrom_roots_constant (more : Nat) (n : Nesting) {p : Piece} {rest : List Piece}
    (constant : p.isConstant = true) :
    wrapFrom .plain n (List.replicate (more + 1) root ++ p :: rest) =
      openCalls (more + 1) ++ p :: closeCalls (more + 1) ++ wrapFrom .plain n rest := by
  obtain ⟨noRoot, noDigit⟩ := other_of_isConstant constant
  rw [wrapFrom_plain_roots, wrapFrom, if_neg noRoot, if_neg noDigit, if_pos constant]

end Piece

end SciCalc
