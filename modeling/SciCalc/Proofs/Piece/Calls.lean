/-
# SciCalc.Proofs.Piece.Calls -- root signs are written as calls one inside another

`Piece.Called` says by rules what pieces are written as: a run of root signs and
its operand become calls of the square root, one for each sign and one inside
another, around that operand.  A group is the operand of the signs before it with
its own parentheses, and what stands in it is written by the same rules.

The pass that writes the calls goes through the pieces once, with the parentheses
it owes on a stack.  Whatever the rules allow it writes, wherever the pieces stand
(`Called.wraps`), so the rules allow one result at most.  They allow one for all
balanced pieces in which every run of root signs is followed by an operand
(`Piece.exists_called`): the pieces are split at the parenthesis that closes a
group (`Piece.exists_closing`), which leaves shorter ones on either side.
-/
import Mathlib.Data.List.TakeWhile
import SciCalc.Proofs.Piece.Wrapping

namespace SciCalc

set_option autoImplicit false

namespace Piece

open Paren

/-! ## Calls one inside another -/

/-- So many calls of the square root, one inside another, around pieces. -/
def calls : Nat → List Piece → List Piece
  | 0, qs => qs
  | n + 1, qs => sqrt :: opening :: calls n qs ++ [closing]

theorem calls_eq (n : Nat) (qs : List Piece) : calls n qs = openCalls n ++ qs ++ closeCalls n := by
  induction n with
  | zero => exact (List.append_nil qs).symm
  | succ n ih =>
      have last : closeCalls (n + 1) = closeCalls n ++ [closing] := List.replicate_succ'
      rw [calls, ih, last]
      simp [openCalls]

/-- The innermost call may have the parentheses of a group. -/
theorem calls_succ (n : Nat) (qs : List Piece) :
    calls (n + 1) qs = openCalls n ++ sqrt :: (opening :: qs ++ closing :: closeCalls n) := by
  induction n with
  | zero => rfl
  | succ n ih =>
      have last : closeCalls (n + 1) = closeCalls n ++ [closing] := List.replicate_succ'
      rw [calls, ih, last]
      simp [openCalls]

/-! ## What root signs are written as -/

/-- The second pieces are the first with every run of root signs and its operand written as calls,
one for each sign, around that operand: the digits up to where they end, a constant, or what stands
in a group, whose own parentheses are those of the innermost call.  Every other piece is as it was,
where it was. -/
inductive Called : List Piece → List Piece → Prop
  | nil : Called [] []
  | piece {p : Piece} {ps qs : List Piece} (noRoot : p ≠ root) (noOpen : p ≠ opening)
      (noClose : p ≠ closing) (rest : Called ps qs) : Called (p :: ps) (p :: qs)
  | group {inner inner' ps qs : List Piece} (inside : Called inner inner') (rest : Called ps qs) :
      Called (opening :: inner ++ closing :: ps) (opening :: inner' ++ closing :: qs)
  | digits (more : Nat) {ds ps qs : List Piece} (some : ds ≠ [])
      (digits : ∀ p ∈ ds, p.isDigit = true) (noDigit : ∀ p ∈ ps.head?, p.isDigit = false)
      (rest : Called ps qs) :
      Called (List.replicate (more + 1) root ++ (ds ++ ps)) (calls (more + 1) ds ++ qs)
  | constant (more : Nat) {p : Piece} {ps qs : List Piece} (constant : p.isConstant = true)
      (rest : Called ps qs) :
      Called (List.replicate (more + 1) root ++ p :: ps) (calls (more + 1) [p] ++ qs)
  | roots (more : Nat) {inner inner' ps qs : List Piece} (inside : Called inner inner')
      (rest : Called ps qs) :
      Called (List.replicate (more + 1) root ++ (opening :: inner ++ closing :: ps))
        (calls (more + 1) inner' ++ qs)

theorem parens_eq_nil {ps : List Piece} (none : ∀ p ∈ ps, Paren.ofPiece p = none) :
    parens ps = [] :=
  List.filterMap_eq_nil_iff.2 none

namespace Called

variable {ps qs : List Piece}

/-- **One pass writes all the calls**, whatever stands around the pieces. -/
theorem wraps (called : Called ps qs) : Wraps ps qs := by
  induction called with
  | nil => exact wraps_nil
  | piece noRoot noOpen noClose _ ih => exact wraps_cons noRoot noOpen noClose ih
  | @group inner inner' ps qs _ _ inside rest =>
      intro n settled after ends
      have whole := inside.wrapFrom_group settled (ps ++ after)
      rw [rest n settled after ends] at whole
      simpa using whole
  | @digits more ds ps qs some digits noDigit _ rest =>
      intro n settled after ends
      rw [List.append_assoc, List.append_assoc,
        wrapFrom_roots_digits more n some digits (noDigit_append noDigit ends),
        rest n settled after ends, calls_eq]
      simp
  | constant more constant _ rest =>
      intro n settled after ends
      rw [List.append_assoc, List.cons_append, wrapFrom_roots_constant more n constant,
        rest n settled after ends, calls_eq]
      simp
  | @roots more inner inner' ps qs _ _ inside rest =>
      intro n settled after ends
      have whole := inside.wrapFrom_roots more settled (ps ++ after)
      rw [rest n settled after ends] at whole
      rw [calls_succ]
      simpa using whole

/-- What is written is balanced. -/
theorem depthAfter_parens (called : Called ps qs) (n : Nat) (after : List Paren) :
    depthAfter n (parens qs ++ after) = depthAfter n after := by
  have around {k : Nat} {inner qs : List Piece}
      (inside : ∀ (n : Nat) (after : List Paren),
        depthAfter n (parens inner ++ after) = depthAfter n after)
      (rest : ∀ (n : Nat) (after : List Paren),
        depthAfter n (parens qs ++ after) = depthAfter n after) (n : Nat) (after : List Paren) :
      depthAfter n (parens (calls k inner ++ qs) ++ after) = depthAfter n after := by
    rw [calls_eq]
    simp only [parens_append, parens_openCalls, parens_closeCalls, List.append_assoc]
    rw [depthAfter_replicate_opens, inside, depthAfter_replicate_closes, rest]
  have plain {ds : List Piece} (none : ∀ p ∈ ds, ofPiece p = none) (n : Nat)
      (after : List Paren) : depthAfter n (parens ds ++ after) = depthAfter n after := by
    rw [parens_eq_nil none, List.nil_append]
  induction called generalizing n after with
  | nil => rfl
  | piece noRoot noOpen noClose _ ih =>
      rw [parens_cons, ofPiece_of_ne noOpen noClose]
      exact ih n after
  | group _ _ inside rest =>
      have opened : Paren.ofPiece opening = some opens := rfl
      have closed : Paren.ofPiece closing = some closes := rfl
      simp [parens_cons, opened, closed, inside, rest]
  | digits more _ digits _ _ rest =>
      exact around (plain fun p member => ofPiece_of_isDigit (digits p member)) rest n after
  | constant more constant _ rest =>
      exact around (plain (by simpa using ofPiece_of_isConstant constant)) rest n after
  | roots more _ _ inside rest => exact around inside rest n after

end Called

/-! ## Where every root sign has an operand -/

/-- Whether a root sign can stand right before a piece: before another sign of its run, or before
what begins an operand. -/
def followsRoot (p : Piece) : Bool :=
  p == root || p.isDigit || p.isConstant || p == opening

/-- Whether every run of root signs is followed by an operand. -/
def rootsApply : List Piece → Bool
  | [] => true
  | p :: rest => (p != root || rest.head?.any followsRoot) && rootsApply rest

theorem rootsApply_of_suffix {ps qs : List Piece} (ends : qs <:+ ps)
    (apply : rootsApply ps = true) : rootsApply qs = true := by
  obtain ⟨before, rfl⟩ := ends
  induction before with
  | nil => exact apply
  | cons p before ih => exact ih (Bool.and_eq_true_iff.1 apply).2

/-- A closing parenthesis is no operand, so root signs before it have theirs before it too. -/
theorem rootsApply_of_group {inner after : List Piece}
    (apply : rootsApply (inner ++ closing :: after) = true) :
    rootsApply inner = true ∧ rootsApply after = true := by
  constructor
  · induction inner with
    | nil => rfl
    | cons p inner ih =>
        obtain ⟨first, others⟩ := Bool.and_eq_true_iff.1 apply
        refine Bool.and_eq_true_iff.2 ⟨?_, ih others⟩
        cases inner with
        | nil =>
            have noOperand : followsRoot closing = false := rfl
            simpa [noOperand] using first
        | cons q inner => exact first
  · exact rootsApply_of_suffix ⟨inner ++ [closing], by simp⟩ apply

/-- The first parenthesis that closes one more group than was opened ends what stands inside. -/
theorem exists_closing (n : Nat) (ps : List Piece)
    (balanced : depthAfter (n + 1) (parens ps) = some 0) :
    ∃ inner rest, ps = inner ++ closing :: rest ∧ depthAfter n (parens inner) = some 0 ∧
      depthAfter 0 (parens rest) = some 0 := by
  induction ps generalizing n with
  | nil => simp at balanced
  | cons p ps ih =>
      rw [parens_cons] at balanced
      by_cases isOpen : p = opening
      · subst isOpen
        obtain ⟨inner, rest, rfl, inside, outside⟩ := ih (n + 1) balanced
        refine ⟨opening :: inner, rest, rfl, ?_, outside⟩
        rw [parens_cons]
        exact inside
      by_cases isClose : p = closing
      · subst isClose
        cases n with
        | zero => exact ⟨[], ps, rfl, rfl, balanced⟩
        | succ n =>
            obtain ⟨inner, rest, rfl, inside, outside⟩ := ih n balanced
            refine ⟨closing :: inner, rest, rfl, ?_, outside⟩
            rw [parens_cons]
            exact inside
      · rw [ofPiece_of_ne isOpen isClose] at balanced
        obtain ⟨inner, rest, rfl, inside, outside⟩ := ih n balanced
        refine ⟨p :: inner, rest, rfl, ?_, outside⟩
        rw [parens_cons, ofPiece_of_ne isOpen isClose]
        exact inside

/-- What stands in a group and what stands after it are shorter than pieces that end with both. -/
theorem length_lt_of_group (before inner after : List Piece) :
    inner.length < (before ++ (opening :: inner ++ closing :: after)).length ∧
      after.length < (before ++ (opening :: inner ++ closing :: after)).length := by
  simp only [List.length_append, List.length_cons]
  omega

/-- A run of root signs, and what follows it. -/
theorem exists_run (ps : List Piece) :
    ∃ n rest, ps = List.replicate n root ++ rest ∧ rest.head? ≠ some root := by
  induction ps with
  | nil => exact ⟨0, [], rfl, nofun⟩
  | cons p ps ih =>
      by_cases isRoot : p = root
      · obtain ⟨n, rest, rfl, ends⟩ := ih
        exact ⟨n + 1, rest, by rw [isRoot, List.replicate_succ, List.cons_append], ends⟩
      · exact ⟨0, p :: ps, rfl, by simpa using isRoot⟩

/-- A numeral goes on to where its digits end. -/
theorem exists_digits {p : Piece} (digit : p.isDigit = true) (rest : List Piece) :
    ∃ ds after, p :: rest = ds ++ after ∧ ds ≠ [] ∧ (∀ q ∈ ds, q.isDigit = true) ∧
      ∀ q ∈ after.head?, q.isDigit = false := by
  refine ⟨p :: rest.takeWhile isDigit, rest.dropWhile isDigit, ?_, List.cons_ne_nil _ _, ?_, ?_⟩
  · rw [List.cons_append, List.takeWhile_append_dropWhile]
  · exact List.forall_mem_cons.2 ⟨digit, fun q member => List.mem_takeWhile_imp member⟩
  · intro q first
    have ended := List.head?_dropWhile_not isDigit rest
    rw [first] at ended
    exact ended

/-- **After a run of root signs** stands an operand: digits, a constant or a group. -/
theorem exists_operand {n : Nat} {rest : List Piece}
    (apply : rootsApply (List.replicate (n + 1) root ++ rest) = true)
    (ends : rest.head? ≠ some root) (balanced : depthAfter 0 (parens rest) = some 0) :
    ∃ after, depthAfter 0 (parens after) = some 0 ∧
      ((∃ ds, rest = ds ++ after ∧ ds ≠ [] ∧ (∀ p ∈ ds, p.isDigit = true) ∧
          ∀ p ∈ after.head?, p.isDigit = false) ∨
        (∃ p, rest = p :: after ∧ p.isConstant = true) ∨
        ∃ inner, rest = opening :: inner ++ closing :: after ∧
          depthAfter 0 (parens inner) = some 0) := by
  rw [List.replicate_succ', List.append_assoc] at apply
  have last := rootsApply_of_suffix (List.suffix_append _ _) apply
  cases rest with
  | nil => cases last
  | cons p rest =>
      have noRoot : p ≠ root := by simpa using ends
      have follows : followsRoot p = true := by
        simpa [rootsApply] using (Bool.and_eq_true_iff.1 last).1
      have operand : p.isDigit = true ∨ p.isConstant = true ∨ p = opening := by
        simpa [followsRoot, noRoot, or_assoc] using follows
      rcases operand with digit | constant | rfl
      · obtain ⟨ds, after, whole, some, digits, noDigit⟩ := exists_digits digit rest
        have none := parens_eq_nil fun q member => ofPiece_of_isDigit (digits q member)
        rw [whole, parens_append, none] at balanced
        exact ⟨after, balanced, .inl ⟨ds, whole, some, digits, noDigit⟩⟩
      · rw [parens_cons, ofPiece_of_isConstant constant] at balanced
        exact ⟨rest, balanced, .inr (.inl ⟨p, rfl, constant⟩)⟩
      · rw [parens_cons] at balanced
        obtain ⟨inner, after, rfl, inside, outside⟩ := exists_closing 0 rest balanced
        exact ⟨after, outside, .inr (.inr ⟨inner, rfl, inside⟩)⟩

/-- **Balanced pieces in which every run of root signs is followed by an operand** can be written
with calls. -/
theorem exists_called (ps : List Piece) (balanced : depthAfter 0 (parens ps) = some 0)
    (apply : rootsApply ps = true) : ∃ qs, Called ps qs := by
  induction length : ps.length using Nat.strongRecOn generalizing ps with
  | ind length ih =>
  subst length
  have shorter (part : List Piece) (less : part.length < ps.length)
      (balanced : depthAfter 0 (parens part) = some 0) (apply : rootsApply part = true) :
      ∃ qs, Called part qs := ih part.length less part balanced apply rfl
  obtain ⟨n, rest, rfl, ends⟩ := exists_run ps
  have signs : parens (List.replicate n root) = [] :=
    parens_eq_nil fun p member => (List.eq_of_mem_replicate member).symm ▸ rfl
  rw [parens_append, signs, List.nil_append] at balanced
  have later := rootsApply_of_suffix (List.suffix_append _ rest) apply
  cases n with
  | zero =>
      cases rest with
      | nil => exact ⟨[], .nil⟩
      | cons p rest =>
          have noRoot : p ≠ root := by simpa using ends
          have further := rootsApply_of_suffix (List.suffix_cons p rest) later
          rw [parens_cons] at balanced
          by_cases isOpen : p = opening
          · subst isOpen
            obtain ⟨inner, after, rfl, inside, outside⟩ := exists_closing 0 rest balanced
            obtain ⟨less, less'⟩ := length_lt_of_group [] inner after
            obtain ⟨qs, called⟩ := shorter inner less inside (rootsApply_of_group further).1
            obtain ⟨rs, goesOn⟩ := shorter after less' outside (rootsApply_of_group further).2
            exact ⟨_, .group called goesOn⟩
          by_cases isClose : p = closing
          · subst isClose
            cases balanced
          · rw [ofPiece_of_ne isOpen isClose] at balanced
            obtain ⟨qs, called⟩ := shorter rest (Nat.lt_succ_self _) balanced further
            exact ⟨p :: qs, .piece noRoot isOpen isClose called⟩
  | succ more =>
      obtain ⟨after, outside, ⟨ds, rfl, some, digits, noDigit⟩ | ⟨p, rfl, constant⟩ |
        ⟨inner, rfl, inside⟩⟩ := exists_operand apply ends balanced
      · have further := rootsApply_of_suffix (List.suffix_append ds after) later
        have less : after.length < (List.replicate (more + 1) root ++ (ds ++ after)).length := by
          simp only [List.length_append, List.length_replicate]
          omega
        obtain ⟨qs, called⟩ := shorter after less outside further
        exact ⟨_, .digits more some digits noDigit called⟩
      · have further := rootsApply_of_suffix (List.suffix_cons p after) later
        have less : after.length < (List.replicate (more + 1) root ++ p :: after).length := by
          simp only [List.length_append, List.length_cons]
          omega
        obtain ⟨qs, called⟩ := shorter after less outside further
        exact ⟨_, .constant more constant called⟩
      · have further := rootsApply_of_suffix (List.suffix_cons opening _) later
        obtain ⟨less, less'⟩ := length_lt_of_group (List.replicate (more + 1) root) inner after
        obtain ⟨qs, called⟩ := shorter inner less inside (rootsApply_of_group further).1
        obtain ⟨rs, goesOn⟩ := shorter after less' outside (rootsApply_of_group further).2
        exact ⟨_, .roots more called goesOn⟩

/-- **Root signs are written as calls one inside another.**  Of balanced pieces in which every run
of root signs is followed by an operand, what is written is what the rules of `Called` give and
nothing else: each run and its operand become so many calls around that operand, and the rest stays.
No root sign is left and the result is balanced. -/
theorem wrapRoots_called (ps : List Piece) (balanced : depthAfter 0 (parens ps) = some 0)
    (apply : rootsApply ps = true) :
    (∀ qs, Called ps qs ↔ qs = wrapRoots ps) ∧ root ∉ wrapRoots ps ∧
      depthAfter 0 (parens (wrapRoots ps)) = some 0 := by
  obtain ⟨qs, called⟩ := exists_called ps balanced apply
  obtain rfl : wrapRoots ps = qs := called.wraps.wrapRoots
  refine ⟨fun qs => ⟨fun called' => called'.wraps.wrapRoots.symm, ?_⟩, ?_, ?_⟩
  · rintro rfl
    exact called
  · intro left
    exact forall_wrapFrom (P := (· ≠ root)) (by decide) (by decide) (by decide)
      (fun _ _ noRoot => noRoot) .plain {} root left rfl
  · have walked := called.depthAfter_parens 0 []
    rwa [List.append_nil] at walked

/-- In `√√(2+√π)√16` two signs stand before a group with a root in it, and one before a numeral. -/
theorem wrapRoots_called_chain :
    let ps : List Piece := [root, root, opening, digit '2', other '+', root, word ['π'], closing,
      root, digit '1', digit '6']
    depthAfter 0 (parens ps) = some 0 ∧ rootsApply ps = true ∧
      Called ps (sqrt :: opening :: sqrt :: opening :: digit '2' :: other '+' ::
        (sqrt :: opening :: word ['π'] :: [closing]) ++ closing :: closing ::
        (sqrt :: opening :: digit '1' :: digit '6' :: [closing])) := by
  intro ps
  have balanced : depthAfter 0 (parens ps) = some 0 := rfl
  have apply : rootsApply ps = true := by decide
  exact ⟨balanced, apply, ((wrapRoots_called ps balanced apply).1 _).2 rfl⟩

end Piece

end SciCalc
