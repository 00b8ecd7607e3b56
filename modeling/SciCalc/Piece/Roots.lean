/-
# SciCalc.Piece.Roots -- root signs become calls

`Piece.wrapRoots` writes the square root where a root sign stands:

* before digits or a constant, each of the signs in a row opens a parenthesis
  that closes right after that operand: `√√4` is `sqrt(sqrt(4))`;
* before anything else the last sign takes what follows as it is, and each sign
  before it opens a parenthesis that closes with the group that follows:
  `√√(4)` is `sqrt(sqrt(4))`.

The pass reads the pieces once.  `Nesting` holds how many groups are open and
the parentheses that wait for one of them to close; `Phase` holds what the
pieces just read were.
-/
import SciCalc.Piece

namespace SciCalc

set_option autoImplicit false

namespace Piece

/-- The open groups, and the parentheses owed at the close of some of them. -/
structure Nesting where
  /-- The number of groups open. -/
  depth : Nat := 0
  /-- Pairs of the number of groups around a group and the parentheses owed at
  its close, the latest first. -/
  owed : List (Nat × Nat) := []
  deriving DecidableEq, Repr

namespace Nesting

/-- One more group is open. -/
def enter (n : Nesting) : Nesting := { n with depth := n.depth + 1 }

/-- One group less is open, and what was owed for it is paid. -/
def leave (n : Nesting) : Nesting :=
  match n.owed with
  | (depth, _) :: rest =>
    if depth = n.depth - 1 then ⟨depth, rest⟩ else ⟨n.depth - 1, n.owed⟩
  | [] => ⟨n.depth - 1, []⟩

/-- The number of parentheses owed when one group is left. -/
def due (n : Nesting) : Nat :=
  match n.owed with
  | (depth, count) :: _ => if depth = n.depth - 1 then count else 0
  | [] => 0

/-- The next group to close owes `count` parentheses. -/
def owe (n : Nesting) (count : Nat) : Nesting :=
  if count = 0 then n else { n with owed := (n.depth, count) :: n.owed }

/-- The nesting after a piece that is no root sign. -/
def after (n : Nesting) (p : Piece) : Nesting :=
  if p = opening then n.enter else if p = closing then n.leave else n

end Nesting

/-- What the last pieces were. -/
inductive Phase where
  /-- No root sign waits for its operand. -/
  | plain
  /-- So many root signs and one more. -/
  | roots (more : Nat)
  /-- Digits under so many root signs and one more. -/
  | operand (more : Nat)
  deriving DecidableEq, Repr

/-- So many calls of the square root, opened. -/
def openCalls : Nat → List Piece
  | 0 => []
  | n + 1 => sqrt :: opening :: openCalls n

/-- So many closing parentheses. -/
def closeCalls (n : Nat) : List Piece := List.replicate n closing

/-- A piece that is no root sign, and the parentheses owed after it. -/
def settle (n : Nesting) (p : Piece) : List Piece :=
  if p = closing then closing :: closeCalls n.due else [p]

/-- The pieces with every root sign written as a call. -/
def wrapFrom : Phase → Nesting → List Piece → List Piece
  | .plain, _, [] => []
  | .plain, n, p :: rest =>
    if p = root then wrapFrom (.roots 0) n rest
    else settle n p ++ wrapFrom .plain (n.after p) rest
  | .roots more, _, [] => openCalls more ++ [sqrt]
  | .roots more, n, p :: rest =>
    if p = root then wrapFrom (.roots (more + 1)) n rest
    else if p.isDigit then openCalls (more + 1) ++ p :: wrapFrom (.operand more) n rest
    else if p.isConstant then
      openCalls (more + 1) ++ p :: closeCalls (more + 1) ++ wrapFrom .plain n rest
    else
      openCalls more ++ sqrt :: settle (n.owe more) p ++ wrapFrom .plain ((n.owe more).after p) rest
  | .operand more, _, [] => closeCalls (more + 1)
  | .operand more, n, p :: rest =>
    if p.isDigit then p :: wrapFrom (.operand more) n rest
    else closeCalls (more + 1)
      ++ if p = root then wrapFrom (.roots 0) n rest
        else settle n p ++ wrapFrom .plain (n.after p) rest

/-- The pieces of an entry with every root sign written as a call. -/
def wrapRoots (ps : List Piece) : List Piece := wrapFrom .plain {} ps

@[simp] theorem wrapRoots_nil : wrapRoots [] = [] := rfl

end Piece

end SciCalc
