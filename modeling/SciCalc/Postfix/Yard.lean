/-
# SciCalc.Postfix.Yard -- from tokens to a postfix list

The tokens are read once from left to right.  `Yard` is what is known between
two tokens: the postfix list so far, the operators, calls and groups that wait
for their operands, whether an operand has just ended, and how many groups are
open.

* A number goes to the list; a factorial does too, its operand being complete.
* A function waits under the parenthesis that must follow it.
* A minus sign where an operand is due is a negation, which waits and releases
  nothing.
* A binary operator first releases what binds at least as much down to the
  nearest group, then waits.
* A closing parenthesis releases what waits above its group, and then the
  function under that group.
-/
import SciCalc.Fault
import SciCalc.Func

namespace SciCalc

set_option autoImplicit false

namespace Postfix

/-- What waits for an operand. -/
inductive Pending where
  | group
  | call (f : Func)
  | negate
  | operator (o : Operator)
  deriving DecidableEq, Repr

namespace Pending

/-- The token that stands for it in a postfix list. -/
def token : Pending → Token
  | group => .openGroup
  | call f => .name f.name
  | negate => .negate
  | operator o => .operator o

/-- How much it binds: a negation more than every operator, a group or a call not at all. -/
def precedence : Pending → Nat
  | group => 0
  | call _ => 0
  | negate => 4
  | operator o => o.precedence

/-- Whether it is complete when the operator `next` follows; no operator passes a group or a
call. -/
def yields (next : Operator) : Pending → Bool
  | group => false
  | call _ => false
  | p => next.precedence ≤ p.precedence

/-- Whether it is a group. -/
def isGroup : Pending → Bool
  | group => true
  | _ => false

end Pending

/-- What is known between two tokens. -/
structure Yard where
  /-- The postfix list so far, the last token first. -/
  emitted : List Token := []
  /-- What waits for its operand, the latest first. -/
  waiting : List Pending := []
  /-- Whether an operand has just ended. -/
  afterValue : Bool := false
  /-- The number of open groups. -/
  depth : Nat := 0
  deriving DecidableEq

namespace Yard

/-- An operand is complete: it goes to the list. -/
def emit (y : Yard) (t : Token) : Yard :=
  { y with emitted := t :: y.emitted, afterValue := true }

/-- Something waits for the operand that must follow. -/
def await (y : Yard) (p : Pending) : Yard :=
  { y with waiting := p :: y.waiting, afterValue := false }

/-- Releases what waits and satisfies a condition, down to the first that does not. -/
def release (y : Yard) (ready : Pending → Bool) : Yard :=
  { y with
    emitted := ((y.waiting.takeWhile ready).map Pending.token).reverse ++ y.emitted
    waiting := y.waiting.dropWhile ready }

/-- Releases the function that waits under a group just closed. -/
def releaseCall (y : Yard) : Yard :=
  match y.waiting with
  | .call f :: below => { y with emitted := .name f.name :: y.emitted, waiting := below }
  | _ => y

/-- Closes the latest group. -/
def close (y : Yard) : Except Fault Yard :=
  let y := y.release fun p => !p.isGroup
  match y.waiting with
  | [] => .error (.malformed .unmatchedClose)
  | _ :: below =>
    .ok { ({ y with waiting := below, depth := y.depth - 1 } : Yard).releaseCall with
      afterValue := true }

/-- Reads one token; `next` is the token after it. -/
def step (maxNesting : Nat) (y : Yard) (t : Token) (next : Option Token) : Except Fault Yard :=
  match t with
  | .number _ =>
    if y.afterValue then .error (.malformed (.missingOperatorBefore t)) else .ok (y.emit t)
  | .name w =>
    match Func.ofName? w with
    | none =>
      .error (.unsupported (if next = some .openGroup then .function w else .identifier w))
    | some f =>
      if y.afterValue then .error (.malformed (.missingOperatorBefore t))
      else if next = some .openGroup then .ok (y.await (.call f))
      else .error (.malformed (.groupExpectedAfter w))
  | .openGroup =>
    if y.afterValue then .error (.malformed (.missingOperatorBefore t))
    else if maxNesting < y.depth + 1 then .error (.exceeded (.nesting maxNesting))
    else .ok { y.await .group with depth := y.depth + 1 }
  | .closeGroup =>
    if y.afterValue then y.close else .error (.malformed (.missingOperandBefore t))
  | .factorial =>
    if y.afterValue then .ok (y.emit t) else .error (.malformed .factorialWithoutOperand)
  | .negate =>
    if y.afterValue then .error (.malformed (.missingOperatorBefore t))
    else .ok (y.await .negate)
  | .operator o =>
    if y.afterValue then .ok ((y.release (Pending.yields o)).await (.operator o))
    else if o = .sub then .ok (y.await .negate)
    else .error (.malformed (.missingOperandBefore t))

/-- Reads tokens one after another; `following` is the token after the last of them. -/
def scan (maxNesting : Nat) (following : Option Token) : Yard → List Token → Except Fault Yard
  | y, [] => .ok y
  | y, t :: rest => do
    let y ← y.step maxNesting t (rest.head?.or following)
    scan maxNesting following y rest

/-- Reading two lists is reading the first, with the second in view, and then the second. -/
theorem scan_append (maxNesting : Nat) (following : Option Token) (y : Yard)
    (ts us : List Token) :
    scan maxNesting following y (ts ++ us) =
      (scan maxNesting (us.head?.or following) y ts).bind fun y =>
        scan maxNesting following y us := by
  induction ts generalizing y with
  | nil => rfl
  | cons t ts ih =>
    have view : ((ts ++ us).head?.or following) = ts.head?.or (us.head?.or following) := by
      cases ts <;> simp
    simp only [List.cons_append, scan, view]
    cases y.step maxNesting t (ts.head?.or (us.head?.or following)) with
    | error fault => rfl
    | ok y => exact ih y

/-- The postfix list at the end of the tokens. -/
def finish (y : Yard) : Except Fault (List Token) :=
  if !y.afterValue then .error (.malformed .missingFinalOperand)
  else if y.waiting.any Pending.isGroup then .error (.malformed .unclosedOpen)
  else .ok (y.release fun _ => true).emitted.reverse

end Yard

/-- The postfix list of tokens, at most `maxNesting` groups being open at once. -/
def ofTokens (maxNesting : Nat) (ts : List Token) : Except Fault (List Token) :=
  if ts.isEmpty then .error (.malformed .emptyExpression)
  else do
    let y ← Yard.scan maxNesting none {} ts
    y.finish

end Postfix

end SciCalc
