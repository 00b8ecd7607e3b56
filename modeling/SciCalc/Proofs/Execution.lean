/-
# SciCalc.Proofs.Execution -- the value of a tree and the run over its postfix list

`Postfix.carryOut` carries out a postfix list on a stack of values, token after
token, and stops at the first operation that fails, at its place in the list.
No name is put around the fault there: the list knows nothing of calls.

`Expr.path` finds the node that stands at a place of the list of a tree, with
the nodes around it.  The theorem of the module is `Expr.value_eq_carryOut`: the
run ends with the value of the tree, or the value is the fault of the run under
the names of the calls around the failing node and its own.

The induction is over the tree, with any tokens to follow and any values below
(`Expr.Refines`); nodes over one operand share one lemma, `Expr.Refines.unary`.
-/
import SciCalc.Expr.Value
import SciCalc.Proofs.Arithmetic

namespace SciCalc

set_option autoImplicit false

/-! ## Carrying out a postfix list -/

namespace Postfix

/-- How carrying out a postfix list ends. -/
inductive Outcome where
  /-- Every token is carried out; these values are left, the latest first. -/
  | done (values : List Float)
  /-- The operation at a place of the list fails. -/
  | failed (place : Nat) (fault : Fault)
  /-- The token at a place of the list is no operation, or finds too few operands. -/
  | stuck (place : Nat)

/-- One token on a stack of values; `none` where it is no operation or finds too few operands. -/
def operate (lib : Elementary) (mode : AngleMode) :
    Token → List Float → Option (Except Fault (List Float))
  | .number v, values => some (.ok (v :: values))
  | .negate, v :: values => some (.ok (-v :: values))
  | .factorial, v :: values => some ((Arithmetic.factorial v).map (· :: values))
  | .name w, v :: values =>
    (Func.ofName? w).map fun f => (f.raw lib mode v).map (· :: values)
  | .operator o, w :: v :: values => some ((Arithmetic.binary lib o v w).map (· :: values))
  | _, _ => none

/-- Carries out tokens from a place of a list on, up to the first operation that fails. -/
def carryOut (lib : Elementary) (mode : AngleMode) : Nat → List Float → List Token → Outcome
  | _, values, [] => .done values
  | place, values, t :: rest =>
    match operate lib mode t values with
    | none => .stuck place
    | some (.error fault) => .failed place fault
    | some (.ok values) => carryOut lib mode (place + 1) values rest

section CarryOut

variable {lib : Elementary} {mode : AngleMode} {t : Token} {values : List Float}

theorem carryOut_cons_ok {result : List Float}
    (operates : operate lib mode t values = some (.ok result)) (place : Nat) (rest : List Token) :
    carryOut lib mode place values (t :: rest) = carryOut lib mode (place + 1) result rest := by
  simp only [carryOut, operates]

theorem carryOut_cons_error {fault : Fault}
    (operates : operate lib mode t values = some (.error fault)) (place : Nat)
    (rest : List Token) : carryOut lib mode place values (t :: rest) = .failed place fault := by
  simp only [carryOut, operates]

end CarryOut

end Postfix

/-! ## Names around faults -/

namespace Fault

/-- A fault under names, the outermost first. -/
def under (names : List Text) (fault : Fault) : Fault := names.foldr within fault

@[simp] theorem under_nil (fault : Fault) : fault.under [] = fault := rfl

theorem under_append (names names' : List Text) (fault : Fault) :
    fault.under (names ++ names') = (fault.under names').under names :=
  List.foldr_append

theorem innermost_under (names : List Text) (fault : Fault) :
    (fault.under names).innermost = fault.innermost := by
  induction names with
  | nil => rfl
  | cons name names ih => exact ih

end Fault

namespace Expr

open Postfix

/-- The token of a node. -/
def token : Expr → Token
  | number v => .number v
  | negate _ => .negate
  | factorial _ => .factorial
  | call f _ => .name f.name
  | binary o _ _ => .operator o

/-- The name that a node puts around a fault inside its operand. -/
def nameAround? : Expr → Option Text
  | call f _ => some f.name
  | _ => none

/-- The name that a node puts around a fault of its own operation. -/
def ownName? : Expr → Option Text
  | call f _ => some f.name
  | factorial _ => some "factorielle"
  | _ => none

/-- The nodes from the root to the one whose token stands at a place of the postfix list. -/
def path : Expr → Nat → List Expr
  | number v, _ => [number v]
  | negate x, place => negate x :: if place < x.postorder.length then x.path place else []
  | factorial x, place => factorial x :: if place < x.postorder.length then x.path place else []
  | call f x, place => call f x :: if place < x.postorder.length then x.path place else []
  | binary o a b, place =>
    binary o a b ::
      if place < a.postorder.length then a.path place
      else if place < a.postorder.length + b.postorder.length then
        b.path (place - a.postorder.length)
      else []

/-- The names around a fault of the node `x` that has the nodes `around` around it. -/
def names (around : List Expr) (x : Expr) : List Text :=
  around.filterMap nameAround? ++ x.ownName?.toList

theorem names_cons (node : Expr) (around : List Expr) (x : Expr) :
    names (node :: around) x = node.nameAround?.toList ++ names around x := by
  rw [names, List.filterMap_cons]
  cases node.nameAround? <;> rfl

/-- A path into a node over one operand: its own token stands last. -/
theorem exists_path_unary {node x : Expr} {place : Nat}
    (listed : node.postorder = x.postorder ++ [node.token])
    (paths : node.path place = node :: if place < x.postorder.length then x.path place else [])
    (operand : place < x.postorder.length → ∃ around y, x.path place = around ++ [y] ∧
      x.postorder[place]? = some y.token) (inside : place < node.postorder.length) :
    ∃ around y, node.path place = around ++ [y] ∧ node.postorder[place]? = some y.token := by
  by_cases below : place < x.postorder.length
  · obtain ⟨around, y, found, there⟩ := operand below
    refine ⟨node :: around, y, ?_, ?_⟩
    · rw [paths, if_pos below, found, List.cons_append]
    · rw [listed, List.getElem?_append_left below, there]
  · rw [listed, List.length_append, List.length_singleton] at inside
    have last : place = x.postorder.length := by omega
    refine ⟨[], node, ?_, ?_⟩
    · rw [paths, if_neg below, List.nil_append]
    · rw [listed, last, List.getElem?_concat_length]

/-- A path leads to the node whose token stands at the place. -/
theorem exists_path (e : Expr) {place : Nat} (inside : place < e.postorder.length) :
    ∃ around x, e.path place = around ++ [x] ∧ e.postorder[place]? = some x.token := by
  induction e generalizing place with
  | number v =>
      obtain rfl : place = 0 := by simpa [postorder] using inside
      exact ⟨[], number v, rfl, rfl⟩
  | negate x ih => exact exists_path_unary rfl rfl ih inside
  | factorial x ih => exact exists_path_unary rfl rfl ih inside
  | call f x ih => exact exists_path_unary rfl rfl ih inside
  | binary o a b iha ihb =>
      simp only [postorder, List.length_append, List.length_singleton] at inside
      by_cases inA : place < a.postorder.length
      · obtain ⟨around, x, found, there⟩ := iha inA
        refine ⟨binary o a b :: around, x, by simp [path, inA, found], ?_⟩
        rw [postorder, List.append_assoc, List.getElem?_append_left inA, there]
      by_cases inB : place < a.postorder.length + b.postorder.length
      · have inside' : place - a.postorder.length < b.postorder.length := by omega
        obtain ⟨around, x, found, there⟩ := ihb inside'
        refine ⟨binary o a b :: around, x, by simp [path, inA, inB, found], ?_⟩
        rw [postorder, List.append_assoc, List.getElem?_append_right (by omega),
          List.getElem?_append_left (by omega), there]
      · have last : place = (a.postorder ++ b.postorder).length := by
          rw [List.length_append]
          omega
        refine ⟨[], binary o a b, by simp [path, inA, inB], ?_⟩
        rw [postorder, last, List.getElem?_concat_length]
        rfl

/-! ## The run over the list of a tree -/

variable {lib : Elementary} {mode : AngleMode}

/-- On any stack and before any tokens, the list of the tree puts its value on the stack, or the run
stops inside the list at a fault that the value of the tree has under the names of its node. -/
def Refines (lib : Elementary) (mode : AngleMode) (e : Expr) : Prop :=
  (∃ v, e.value lib mode = .ok v ∧ ∀ place values rest,
      carryOut lib mode place values (e.postorder ++ rest) =
        carryOut lib mode (place + e.postorder.length) (v :: values) rest) ∨
    ∃ place fault around x, place < e.postorder.length ∧ fault.ofOperation = true ∧
      e.path place = around ++ [x] ∧ e.value lib mode = .error (fault.under (names around x)) ∧
        ∀ start values rest, carryOut lib mode start values (e.postorder ++ rest) =
          .failed (start + place) fault

/-- What a failing run inside an operand is to a node. -/
theorem under_names_cons (node : Expr) (around : List Expr) (x : Expr) (fault : Fault) :
    fault.under (names (node :: around) x) =
      (fault.under (names around x)).under node.nameAround?.toList := by
  rw [names_cons, Fault.under_append]

/-- **A node over one operand.**  Its operand comes first; then its operation is carried out on the
value. -/
theorem Refines.unary {node x : Expr} (operation : Float → Except Fault Float)
    (own : ∀ v, Operational (operation v))
    (listed : node.postorder = x.postorder ++ [node.token])
    (paths : ∀ place,
      node.path place = node :: if place < x.postorder.length then x.path place else [])
    (operates : ∀ v values, operate lib mode node.token (v :: values) =
      some ((operation v).map (· :: values)))
    (evaluates : node.value lib mode =
      ((x.value lib mode).mapError (Fault.under node.nameAround?.toList)).bind fun v =>
        (operation v).mapError (Fault.under node.ownName?.toList))
    (refines : x.Refines lib mode) : node.Refines lib mode := by
  have length : node.postorder.length = x.postorder.length + 1 := by simp [listed]
  rcases refines with ⟨v, value, run⟩ | ⟨place, fault, around, y, inside, single, found, value, run⟩
  · have started (start : Nat) (values : List Float) (rest : List Token) :
        carryOut lib mode start values (node.postorder ++ rest) =
          carryOut lib mode (start + x.postorder.length) (v :: values) (node.token :: rest) := by
      rw [listed, List.append_assoc, run]
      rfl
    have gives : node.value lib mode =
        (operation v).mapError (Fault.under node.ownName?.toList) := by
      rw [evaluates, value]
      rfl
    cases result : operation v with
    | ok w =>
        refine .inl ⟨w, by rw [gives, result]; rfl, ?_⟩
        intro start values rest
        have step : operate lib mode node.token (v :: values) = some (.ok (w :: values)) := by
          rw [operates, result]
          rfl
        rw [started, carryOut_cons_ok step, length, Nat.add_assoc]
    | error fault =>
        refine .inr ⟨x.postorder.length, fault, [], node, by omega, own v fault result, ?_, ?_, ?_⟩
        · rw [paths, if_neg (Nat.lt_irrefl _), List.nil_append]
        · rw [gives, result]
          rfl
        · intro start values rest
          have step : operate lib mode node.token (v :: values) = some (.error fault) := by
            rw [operates, result]
            rfl
          rw [started, carryOut_cons_error step]
  · refine .inr ⟨place, fault, node :: around, y, by omega, single, ?_, ?_, ?_⟩
    · rw [paths, if_pos inside, found, List.cons_append]
    · rw [evaluates, value, under_names_cons]
      rfl
    · intro start values rest
      rw [listed, List.append_assoc, run]

/-- **A node over two operands**: the left one, the right one, the operation on their values. -/
theorem Refines.binary {a b : Expr} (o : Operator) (first : a.Refines lib mode)
    (second : b.Refines lib mode) : (binary o a b).Refines lib mode := by
  have length : (Expr.binary o a b).postorder.length =
      a.postorder.length + b.postorder.length + 1 := by
    simp [postorder, Nat.add_assoc]
  -- no operator has a name, so the names are those inside the operand
  have inside_names (around : List Expr) (x : Expr) :
      names (Expr.binary o a b :: around) x = names around x := names_cons ..
  rcases first with ⟨v, valueA, runA⟩ | ⟨place, fault, around, x, inside, single, found, value, run⟩
  · rcases second with
      ⟨w, valueB, runB⟩ | ⟨place, fault, around, x, inside, single, found, value, run⟩
    · have started (start : Nat) (values : List Float) (rest : List Token) :
          carryOut lib mode start values ((Expr.binary o a b).postorder ++ rest) =
            carryOut lib mode (start + a.postorder.length + b.postorder.length) (w :: v :: values)
              (.operator o :: rest) := by
        rw [postorder, List.append_assoc, List.append_assoc, runA, runB]
        rfl
      have evaluates : (Expr.binary o a b).value lib mode = Arithmetic.binary lib o v w := by
        simp only [Expr.value, valueA, valueB, bind, Except.bind]
      cases result : Arithmetic.binary lib o v w with
      | ok u =>
          refine .inl ⟨u, by rw [evaluates, result], ?_⟩
          intro start values rest
          have step : operate lib mode (.operator o) (w :: v :: values) =
              some (.ok (u :: values)) := by
            rw [operate, result]
            rfl
          rw [started, carryOut_cons_ok step, length]
          simp only [Nat.add_assoc]
      | error fault =>
          refine .inr ⟨a.postorder.length + b.postorder.length, fault, [], Expr.binary o a b,
            by omega, Arithmetic.operational_binary lib o v w fault result, ?_, ?_, ?_⟩
          · rw [path, if_neg (by omega), if_neg (by omega), List.nil_append]
          · rw [evaluates, result]
            rfl
          · intro start values rest
            have step : operate lib mode (.operator o) (w :: v :: values) =
                some (.error fault) := by
              rw [operate, result]
              rfl
            rw [started, carryOut_cons_error step, Nat.add_assoc]
    · refine .inr ⟨a.postorder.length + place, fault, Expr.binary o a b :: around, x, by omega,
        single, ?_, ?_, ?_⟩
      · have notA : ¬ a.postorder.length + place < a.postorder.length := by omega
        have inB : a.postorder.length + place < a.postorder.length + b.postorder.length := by omega
        have rest : a.postorder.length + place - a.postorder.length = place := by omega
        rw [path, if_neg notA, if_pos inB, rest, found, List.cons_append]
      · rw [inside_names]
        simp only [Expr.value, valueA, value, bind, Except.bind]
      · intro start values rest
        rw [postorder, List.append_assoc, List.append_assoc, runA, run, Nat.add_assoc]
  · refine .inr ⟨place, fault, Expr.binary o a b :: around, x, by omega, single, ?_, ?_, ?_⟩
    · rw [path, if_pos inside, found, List.cons_append]
    · rw [inside_names]
      simp only [Expr.value, value, bind, Except.bind]
    · intro start values rest
      rw [postorder, List.append_assoc, List.append_assoc, run]

theorem refines (lib : Elementary) (mode : AngleMode) (e : Expr) : e.Refines lib mode := by
  induction e with
  | number v => exact .inl ⟨v, rfl, fun _ _ _ => rfl⟩
  | negate x ih =>
      refine .unary (fun v => .ok (-v)) (fun v => operational_ok (-v)) rfl
        (fun _ => rfl) (fun _ _ => rfl) ?_ ih
      rw [Expr.value]
      cases x.value lib mode <;> rfl
  | factorial x ih =>
      refine .unary Arithmetic.factorial Arithmetic.operational_factorial rfl
        (fun _ => rfl) (fun _ _ => rfl) ?_ ih
      rw [Expr.value]
      cases x.value lib mode <;> rfl
  | call f x ih =>
      refine .unary (f.raw lib mode) (f.operational_raw lib mode) rfl
        (fun _ => rfl) (fun v values => ?_) ?_ ih
      · simp only [token, operate, Func.ofName?_name, Option.map_some]
      · rw [Expr.value]
        cases x.value lib mode <;> rfl
  | binary o a b iha ihb => exact iha.binary o ihb

/-- Whatever names stand around it, the fault of a tree is one of a single operation. -/
theorem ofOperation_of_value {e : Expr} {fault : Fault} (fails : e.value lib mode = .error fault) :
    fault.innermost.ofOperation = true := by
  rcases e.refines lib mode with ⟨v, value, -⟩ | ⟨-, base, around, x, -, single, -, value, -⟩
  · rw [value] at fails
    cases fails
  · obtain rfl := Except.error.inj (value.symm.trans fails)
    rw [Fault.innermost_under, Fault.innermost_of_ofOperation single]
    exact single

/-- **The value of a tree is what carrying out its postfix list gives.**  The run leaves one value,
that of the tree; or the operation of a node `x` fails at its place, and the value is that fault
under the names of the calls around `x`, the outermost first, and then that of `x` if it has one. -/
theorem value_eq_carryOut (lib : Elementary) (mode : AngleMode) (e : Expr) :
    (∃ v, carryOut lib mode 0 [] e.postorder = .done [v] ∧ e.value lib mode = .ok v) ∨
      ∃ place fault around x shown,
        carryOut lib mode 0 [] e.postorder = .failed place fault ∧
          (e.path place = around ++ [x] ∧ e.postorder[place]? = some x.token) ∧
          e.value lib mode = .error shown ∧
          shown = fault.under (around.filterMap nameAround? ++ x.ownName?.toList) ∧
          shown.innermost = fault ∧ shown.kind = fault.kind := by
  rcases e.refines lib mode with ⟨v, value, run⟩ | ⟨place, fault, around, x, inside, single, found,
    value, run⟩
  · refine .inl ⟨v, ?_, value⟩
    have ended := run 0 [] []
    rw [List.append_nil] at ended
    exact ended
  · have ended := run 0 [] []
    rw [List.append_nil, Nat.zero_add] at ended
    obtain ⟨around', x', found', there⟩ := e.exists_path inside
    obtain ⟨rfl, rfl⟩ : around' = around ∧ x' = x := by
      simpa using found'.symm.trans found
    have heart : (fault.under (names around' x')).innermost = fault := by
      rw [Fault.innermost_under, Fault.innermost_of_ofOperation single]
    refine .inr ⟨place, fault, _, _, _, ended, ⟨found, there⟩, value, rfl, heart, ?_⟩
    rw [← Fault.kind_innermost]
    exact congrArg Fault.kind heart

/-- In `ln(abs(1/0)!)` the division fails first, under two calls; the factorial names only faults of
its own. -/
example :
    let e : Expr := .call .ln (.factorial (.call .abs (.binary .div (.number 1) (.number 0))))
    carryOut .machine .degrees 0 [] e.postorder = .failed 2 .divisionByZero ∧
      e.value .machine .degrees = .error (.within "ln" (.within "abs" .divisionByZero)) :=
  ⟨rfl, rfl⟩

end Expr

end SciCalc
