/-
# SciCalc.Proofs.Agreement -- an entry and the direct operation agree

`Direct` applies the sign of an operation, or the name of a function, to doubles
with no entry to read; an entry writes the doubles out and reads them back.  The
two tables of names are separate, and here they are seen to name the same
operations: a finite double spells itself whatever its sign, so the entry of two
numbers around a sign, or of one number in a call, is read as a tree of one
node, and the value of that node is the direct result, faults and the names
around them included (`Settings.valueOf_eq_direct`).
-/
import SciCalc.Direct
import SciCalc.Proofs.Written

namespace SciCalc

set_option autoImplicit false

open SciCalc.Expr (grouped)

/-! ## The tables of the direct operations -/

namespace Direct

variable (lib : Elementary)

/-- Every spelling of an operator is the sign of the direct operation. -/
theorem applyOperator_of_mem_spellings {o : Operator} {sign : Text} (spelled : sign ∈ o.spellings)
    (a b : Float) : applyOperator lib a b sign = Arithmetic.binary lib o a b := by
  have found : Operation.ofSign? sign.trim = some (.ofOperator o) := by
    revert sign
    cases o <;> decide
  rw [applyOperator, found]
  exact Operation.apply_ofOperator lib o a b

/-- The name of a function of expressions is its name here. -/
theorem applyFunction_name (mode : AngleMode) (f : Func) (v : Float) :
    applyFunction lib mode v f.name = f.apply lib mode v := by
  have found : UnaryFunction.ofName? f.name.trim.lower = some (.ofExpressions f) := by
    cases f <;> rfl
  rw [applyFunction, found]
  exact UnaryFunction.apply_ofExpressions lib mode f v

end Direct

/-! ## Entries of one operation -/

/-- A finite double is written as a phrase of any category. -/
theorem Spells.exists_number {v : Float} (finite : v.isFinite = true) (c : Category) :
    ∃ x : Phrase c, Spells (Number.text v) x ∧ x.tokens = [.number v] ∧ x.tree = .number v ∧
      x.nesting = 0 := by
  have highest : c.level ≤ Category.primary.level := by cases c <;> decide
  obtain ⟨x, tokens, tree, nesting⟩ := (Phrase.number v).exists_of_level_le c highest
  exact ⟨x, (Spells.number finite).of_tokens tokens, tokens, tree, nesting⟩

namespace Settings

/-- What a text spells is evaluated, where the limits admit it. -/
theorem valueOf_of_spells (lib : Elementary) {s : Settings} {entry : Text} {d : Phrase .sum}
    (spells : Spells entry d) (covers : s.Covers (forPhrase d)) :
    s.valueOf lib entry = d.tree.value lib s.mode := by
  rw [valueOf, evaluate, read_of_spells spells covers]
  show (d.tree.value lib s.mode >>= _).map Prod.fst = _
  cases d.tree.value lib s.mode <;> rfl

/-- A phrase of any category is evaluated, if it is small enough for the default limits. -/
theorem valueOf_of_small (lib : Elementary) (mode : AngleMode) {entry : Text} {c : Category}
    {x : Phrase c} (spells : Spells entry x) (few : x.tokens.length ≤ 4096)
    (shallow : x.nesting ≤ 64) (low : x.tree.height ≤ 512) :
    (withMode mode).valueOf lib entry = x.tree.value lib mode := by
  obtain ⟨d, tokens, tree, nesting⟩ := x.exists_of_level_le .sum c.level_pos
  have covers : (withMode mode).Covers (forPhrase d) := by
    constructor
    · show d.tokens.length ≤ 4096
      rwa [tokens]
    · show d.nesting ≤ 64
      rwa [nesting]
    · show d.tree.height ≤ 512
      rwa [tree]
  rw [valueOf_of_spells lib (spells.of_tokens tokens) covers, tree]
  rfl

variable {a b : Float}

theorem valueOf_operator (lib : Elementary) (mode : AngleMode) (finite : a.isFinite = true)
    (finite' : b.isFinite = true) {o : Operator} {sign : Text} (spelled : sign ∈ o.spellings) :
    (withMode mode).valueOf lib (Number.text a ++ sign ++ Number.text b) =
      Arithmetic.binary lib o a b := by
  obtain ⟨x, first, tokens, tree, nesting⟩ := Spells.exists_number finite o.left
  obtain ⟨y, second, tokens', tree', nesting'⟩ := Spells.exists_number finite' o.right
  have node : (Phrase.binary o x y).tree = .binary o (.number a) (.number b) := by
    rw [Phrase.tree, tree, tree']
  rw [valueOf_of_small lib mode (first.spelled spelled second), node]
  · rfl
  · simp [Phrase.tokens, tokens, tokens']
  · simp [Phrase.nesting, nesting, nesting']
  · simp [node, Expr.height]

theorem valueOf_call (lib : Elementary) (mode : AngleMode) (finite : a.isFinite = true)
    (f : Func) :
    (withMode mode).valueOf lib (f.name ++ grouped (Number.text a)) = f.apply lib mode a := by
  obtain ⟨x, argument, tokens, tree, nesting⟩ := Spells.exists_number finite .sum
  have node : (Phrase.call f x).tree = .call f (.number a) := by rw [Phrase.tree, tree]
  rw [valueOf_of_small lib mode (argument.call f), node]
  · rfl
  · simp [Phrase.tokens, tokens]
  · simp [Phrase.nesting, nesting]
  · simp [node, Expr.height]

/-- **An entry of one operation has the direct result.**  Whatever finite doubles are written
around the sign of an operator or in a call, the entry has the value of the direct operation, or
its fault. -/
theorem valueOf_eq_direct (lib : Elementary) (mode : AngleMode) (a b : Float)
    (finite : a.isFinite = true) (finite' : b.isFinite = true) :
    (∀ o : Operator, ∀ sign ∈ o.spellings,
        (withMode mode).valueOf lib (Number.text a ++ sign ++ Number.text b) =
          Direct.applyOperator lib a b sign) ∧
      ∀ f : Func, (withMode mode).valueOf lib (f.name ++ grouped (Number.text a)) =
        Direct.applyFunction lib mode a f.name := by
  refine ⟨fun o sign spelled => ?_, fun f => ?_⟩
  · rw [valueOf_operator lib mode finite finite' spelled,
      Direct.applyOperator_of_mem_spellings lib spelled]
  · rw [valueOf_call lib mode finite f, Direct.applyFunction_name]

/-- The entry `-2.5--0` is a difference of two negative numbers, `-2.5÷-0` divides by zero and
`sqrt(-2.5)` fails under the name of the root. -/
theorem valueOf_eq_direct_negative :
    let s := withMode .radians
    (Float.isFinite (-2.5) = true ∧ Float.isFinite (-0) = true) ∧
      Direct.applyOperator .machine (-2.5) (-0) "-" = .ok (-2.5) ∧
      s.valueOf .machine "-2.5--0" = .ok (-2.5) ∧
      s.valueOf .machine "-2.5÷-0" = .error .divisionByZero ∧
      s.valueOf .machine "sqrt(-2.5)" =
        .error (.within "sqrt" (.outOfDomain .squareRootOfNegative)) := by
  intro s
  obtain ⟨signs, names⟩ := valueOf_eq_direct .machine .radians (-2.5) (-0) rfl rfl
  have texts : Number.text (-2.5) = "-2.5" ∧ Number.text (-0) = "-0" := by decide +kernel
  rw [texts.1, texts.2] at signs
  rw [texts.1] at names
  refine ⟨⟨rfl, rfl⟩, by decide +kernel, ?_, ?_, ?_⟩
  · exact (signs .sub "-" (by decide)).trans (by decide +kernel)
  · exact (signs .div "÷" (by decide)).trans (by decide +kernel)
  · exact (names .sqrt).trans (by decide +kernel)

end Settings

end SciCalc
