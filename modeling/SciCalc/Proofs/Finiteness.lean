/-
# SciCalc.Proofs.Finiteness -- no evaluation ends in an infinity or a NaN

Every number that is read is finite, and every operation on finite doubles gives
a finite double or a fault.  `YieldsFinite` says this of a result; it is proved
for each operation from the guard that stands before it or after it:

* a sum, a difference, a product, a quotient by what is not zero and an
  exponential may be infinite but are no NaN, and `Arithmetic.bounded` refuses the
  infinities; a power is asked for both;
* a root, a logarithm, an arc sine and a factorial are taken inside their domains
  only, where they are finite;
* whatever else there is keeps finite doubles finite.

What the elementary functions have to satisfy for this is
`Elementary.KeepsFinite`; all other operations are defined in this library, and
nothing is assumed of them.
-/
import SciCalc.Proofs.Binary64.Finite
import SciCalc.Proofs.Working

namespace SciCalc

set_option autoImplicit false

/-- What is asked of the elementary functions: on finite arguments in their domains all but the
exponential are finite, and the exponential is no NaN.  The inverse functions are finite in either
unit of angles.  Nothing is asked of the power. -/
structure Elementary.KeepsFinite (lib : Elementary) : Prop where
  sin : ∀ v : Float, v.isFinite = true → (lib.sin v).isFinite = true
  cos : ∀ v : Float, v.isFinite = true → (lib.cos v).isFinite = true
  tan : ∀ v : Float, v.isFinite = true → (lib.tan v).isFinite = true
  asin : ∀ (mode : AngleMode) (v : Float), Arithmetic.isSine v = true →
    (mode.ofRadians (lib.asin v)).isFinite = true
  acos : ∀ (mode : AngleMode) (v : Float), Arithmetic.isSine v = true →
    (mode.ofRadians (lib.acos v)).isFinite = true
  atan : ∀ (mode : AngleMode) (v : Float), v.isFinite = true →
    (mode.ofRadians (lib.atan v)).isFinite = true
  log10 : ∀ v : Float, v.isFinite = true → 0 < v → (lib.log10 v).isFinite = true
  ln : ∀ v : Float, v.isFinite = true → 0 < v → (lib.ln v).isFinite = true
  exp : ∀ v : Float, v.isFinite = true → (lib.exp v).isNaN = false

/-- A result that, if it is a value, is a finite one. -/
def YieldsFinite (result : Except Fault Float) : Prop :=
  ∀ v, result = .ok v → v.isFinite = true

namespace YieldsFinite

variable {v : Float} {result : Except Fault Float}

theorem ok (finite : v.isFinite = true) : YieldsFinite (.ok v) := by
  rintro _ ⟨⟩
  exact finite

theorem error (fault : Fault) : YieldsFinite (.error fault) := nofun

theorem ite {condition : Prop} [Decidable condition] {yes no : Except Fault Float}
    (first : condition → YieldsFinite yes) (second : ¬ condition → YieldsFinite no) :
    YieldsFinite (if condition then yes else no) := by
  split
  · exact first ‹_›
  · exact second ‹_›

/-- A computation on a finite value. -/
theorem bind (first : YieldsFinite result) {next : Float → Except Fault Float}
    (second : ∀ v, v.isFinite = true → YieldsFinite (next v)) : YieldsFinite (result >>= next) := by
  cases result with
  | error fault => exact error fault
  | ok v => exact second v (first v rfl)

/-- A name around a fault changes no value. -/
theorem mapError (yields : YieldsFinite result) (around : Fault → Fault) :
    YieldsFinite (result.mapError around) := by
  cases result with
  | error fault => exact error (around fault)
  | ok v => exact yields

end YieldsFinite

/-! ## Operations -/

namespace Arithmetic

variable {lib : Elementary} {v a b : Float}

theorem yieldsFinite_bounded (operation : Text) (number : v.isNaN = false) :
    YieldsFinite (bounded operation v) :=
  .ite (fun _ => .error _) fun noInf =>
    .ok (Binary64.isFinite_of_number number (Bool.eq_false_iff.2 noInf))

/-- **Every binary operator** yields finite doubles of finite operands. -/
theorem yieldsFinite_binary (lib : Elementary) (o : Operator) (finite : a.isFinite = true)
    (finite' : b.isFinite = true) : YieldsFinite (binary lib o a b) := by
  cases o with
  | add => exact yieldsFinite_bounded _ (Binary64.isNaN_add finite finite')
  | sub => exact yieldsFinite_bounded _ (Binary64.isNaN_sub finite finite')
  | mul => exact yieldsFinite_bounded _ (Binary64.isNaN_mul finite finite')
  | div =>
      refine .ite (fun _ => .error _) fun some => yieldsFinite_bounded _ ?_
      have number := Binary64.isNaN_of_isFinite finite
      exact Binary64.isNaN_div number finite' (Bool.eq_false_iff.2 some)
  | pow =>
      refine .ite (fun _ => .error _) fun number => .ite (fun _ => .error _) fun noInf => .ok ?_
      exact Binary64.isFinite_of_number (Bool.eq_false_iff.2 number) (Bool.eq_false_iff.2 noInf)

theorem yieldsFinite_factorial (finite : v.isFinite = true) : YieldsFinite (factorial v) := by
  refine .ite (fun _ => .error _) fun notBelow => .ite (fun _ => .error _) fun _ =>
    .ite (fun _ => .error _) fun small => .ok ?_
  exact Binary64.isFinite_product (Binary64.truncateToNat_le finite small notBelow)

theorem yieldsFinite_tanRadians (keeps : lib.KeepsFinite) (finite : v.isFinite = true) :
    YieldsFinite (tanRadians lib v) :=
  .ite (fun _ => .error _) fun _ => .ok (keeps.tan v finite)

theorem isFinite_toRadians (mode : AngleMode) (finite : v.isFinite = true) :
    (mode.toRadians v).isFinite = true := by
  cases mode with
  | degrees => exact Binary64.isFinite_radiansOfDegrees finite
  | radians => exact finite

theorem yieldsFinite_tan (keeps : lib.KeepsFinite) (mode : AngleMode) (finite : v.isFinite = true) :
    YieldsFinite (tan lib mode v) := by
  cases mode with
  | degrees =>
      refine .ite (fun _ => .error _) fun _ => yieldsFinite_tanRadians keeps ?_
      exact Binary64.isFinite_radiansOfDegrees (Binary64.isFinite_leastRemainder finite)
  | radians => exact yieldsFinite_tanRadians keeps finite

end Arithmetic

open Arithmetic in
/-- **Every function** yields finite doubles of finite arguments. -/
theorem Func.yieldsFinite_raw {lib : Elementary} (keeps : lib.KeepsFinite) (mode : AngleMode)
    (f : Func) {v : Float} (finite : v.isFinite = true) : YieldsFinite (f.raw lib mode v) := by
  cases f with
  | sin => exact .ok (keeps.sin _ (isFinite_toRadians mode finite))
  | cos => exact .ok (keeps.cos _ (isFinite_toRadians mode finite))
  | tan => exact yieldsFinite_tan keeps mode finite
  | asin => exact .ite (fun inside => .ok (keeps.asin mode v inside)) fun _ => .error _
  | acos => exact .ite (fun inside => .ok (keeps.acos mode v inside)) fun _ => .error _
  | atan => exact .ok (keeps.atan mode v finite)
  | log =>
      refine .ite (fun _ => .error _) fun above => .ok (keeps.log10 v finite ?_)
      exact Binary64.pos_of_not_nonpos finite above
  | ln =>
      refine .ite (fun _ => .error _) fun above => .ok (keeps.ln v finite ?_)
      exact Binary64.pos_of_not_nonpos finite above
  | exp => exact yieldsFinite_bounded _ (keeps.exp v finite)
  | sqrt =>
      refine .ite (fun _ => .error _) fun notBelow => .ok ?_
      exact Binary64.isFinite_sqrt finite notBelow
  | abs => exact .ok (Binary64.isFinite_abs finite)
  | floor => exact .ok (Binary64.isFinite_floor finite)
  | ceil => exact .ok (Binary64.isFinite_ceil finite)
  | round => exact .ok (Binary64.isFinite_round finite)

/-! ## Trees -/

/-- **A tree of finite numbers** yields a finite double. -/
theorem Expr.yieldsFinite_value {lib : Elementary} (keeps : lib.KeepsFinite) (mode : AngleMode)
    (e : Expr) (finite : e.finiteLeaves = true) : YieldsFinite (e.value lib mode) := by
  induction e with
  | number v => exact .ok finite
  | negate x ih => exact (ih finite).bind fun v value => .ok (Binary64.isFinite_neg value)
  | factorial x ih =>
      exact (ih finite).bind fun v value => (Arithmetic.yieldsFinite_factorial value).mapError _
  | call f x ih =>
      refine ((ih finite).mapError _).bind fun v value => ?_
      exact (f.yieldsFinite_raw keeps mode value).mapError _
  | binary o a b iha ihb =>
      rw [finiteLeaves, Bool.and_eq_true] at finite
      exact (iha finite.1).bind fun v value => (ihb finite.2).bind fun w value' =>
        Arithmetic.yieldsFinite_binary lib o value value'

/-! ## Entries -/

/-- The leaves of the tree of a phrase are the numbers among its tokens. -/
theorem Phrase.finiteLeaves_tree {c : Category} (x : Phrase c)
    (finite : ∀ v, .number v ∈ x.tokens → v.isFinite = true) : x.tree.finiteLeaves = true := by
  induction x with
  | number v => exact finite v (List.mem_singleton_self _)
  | group x ih => exact ih fun v member => finite v (by simp [tokens, member])
  | call f x ih => exact ih fun v member => finite v (by simp [tokens, member])
  | factorial x ih => exact ih fun v member => finite v (by simp [tokens, member])
  | minus x ih => exact ih fun v member => finite v (by simp [tokens, member])
  | negate x ih => exact ih fun v member => finite v (by simp [tokens, member])
  | binary o x y ihx ihy =>
      rw [tree, Expr.finiteLeaves, Bool.and_eq_true]
      constructor
      · exact ihx fun v member => finite v (by simp [tokens, member])
      · exact ihy fun v member => finite v (by simp [tokens, member])
  | ofPrimary x ih | ofSuffixed x ih | ofUnary x ih | ofPower x ih | ofProduct x ih =>
      exact ih finite

namespace Settings

/-- An entry is read as a tree of finite numbers. -/
theorem finiteLeaves_of_read {s : Settings} {entry : Text} {r : Reading}
    (done : s.read entry = .ok r) : r.tree.finiteLeaves = true := by
  obtain ⟨d, spells, -, tree⟩ := exists_phrase_of_read done
  rw [← tree]
  exact d.finiteLeaves_tree (Token.rereadable_of_read spells).finite

/-- **No evaluation ends in an infinity or a NaN.**  The value of an entry is finite under any
settings, and so is that of any tree of finite numbers in either unit of angles, wherever there is a
value at all. -/
theorem isFinite_of_evaluate (lib : Elementary) (keeps : lib.KeepsFinite) :
    (∀ (s : Settings) (entry : Text) (v : Float) (w : Working),
        s.evaluate lib entry = .ok (v, w) → v.isFinite = true) ∧
      ∀ (mode : AngleMode) (e : Expr), e.finiteLeaves = true →
        ∀ v, e.value lib mode = .ok v → v.isFinite = true := by
  refine ⟨fun s entry v w done => ?_, fun mode e finite => e.yieldsFinite_value keeps mode finite⟩
  obtain ⟨r, read, value, -⟩ := evaluate_eq_ok_iff.1 done
  exact r.tree.yieldsFinite_value keeps s.mode (finiteLeaves_of_read read) v value

/-- Functions that are those of analysis at zero, or at one where zero is no argument. -/
theorem isFinite_of_evaluate_constants :
    let lib : Elementary :=
      { sin := fun _ => 0, cos := fun _ => 1, tan := fun _ => 0, asin := fun _ => 0
        acos := fun _ => 0, atan := fun _ => 0, exp := fun _ => 1, exp2 := fun _ => 1
        ln := fun _ => 0, log10 := fun _ => 0, sinh := fun _ => 0, cosh := fun _ => 1
        tanh := fun _ => 0, pow := fun a _ => a, gamma := fun _ => 1 }
    lib.KeepsFinite ∧
      valueOf lib {} "cos(0)/3-ln(exp(0))" = .ok (1 / 3) ∧ (1 / 3 : Float).isFinite = true := by
  intro lib
  have inverse (mode : AngleMode) : (mode.ofRadians 0).isFinite = true := by
    cases mode <;> decide +kernel
  have zero : (0 : Float).isFinite = true := by decide +kernel
  have one : (1 : Float).isFinite = true ∧ (1 : Float).isNaN = false := by decide +kernel
  have keeps : lib.KeepsFinite :=
    { sin := fun _ _ => zero, cos := fun _ _ => one.1, tan := fun _ _ => zero
      asin := fun mode _ _ => inverse mode, acos := fun mode _ _ => inverse mode
      atan := fun mode _ _ => inverse mode, log10 := fun _ _ _ => zero, ln := fun _ _ _ => zero
      exp := fun _ _ => one.2 }
  have value : valueOf lib {} "cos(0)/3-ln(exp(0))" = .ok (1 / 3) := by decide +kernel
  obtain ⟨w, done⟩ := exists_working value
  exact ⟨keeps, value, (isFinite_of_evaluate lib keeps).1 {} _ _ w done⟩

end Settings

end SciCalc
