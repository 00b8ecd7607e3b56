/-
# SciCalc.Proofs.Grammar -- the grammar of expressions over tokens

A `Phrase` is a derivation of the grammar

    sum      := product  | sum ('+' | '-') product
    product  := power    | product ('*' | '/') power
    power    := unary    | power '^' unary
    unary    := suffixed | ('-' | negate) unary
    suffixed := primary  | suffixed '!'
    primary  := number   | '(' sum ')' | f '(' sum ')'

whose three binary levels group to the left because they recur on the left.
`Phrase.tokens` is what a derivation spells, `Phrase.tree` the expression it
stands for and `Phrase.nesting` the greatest number of groups around one of its
tokens.

A category has a level, the loosest one first, so that an operator makes a
phrase of the level that is its precedence (`Operator.level_left`).  Whatever two
phrases are made of, an operator between their tokens makes a phrase of the whole
(`Phrase.exists_join`), though its tree need not hold theirs.
-/
import SciCalc.Expr

namespace SciCalc

set_option autoImplicit false

/-- The syntactic categories, the loosest first. -/
inductive Category where
  | sum
  | product
  | power
  | unary
  | suffixed
  | primary
  deriving DecidableEq, Repr

namespace Category

/-- How tightly a phrase of a category holds together. -/
def level : Category → Nat
  | sum => 1
  | product => 2
  | power => 3
  | unary => 4
  | suffixed => 5
  | primary => 6

/-- The next looser category; the loosest one is its own. -/
def looser : Category → Category
  | sum => sum
  | product => sum
  | power => product
  | unary => power
  | suffixed => unary
  | primary => suffixed

theorem level_pos (c : Category) : 1 ≤ c.level := by cases c <;> decide

theorem level_injective (c d : Category) (same : c.level = d.level) : c = d := by
  cases c <;> cases d <;> first | rfl | simp [level] at same

theorem level_looser (c : Category) : c.looser.level = max 1 (c.level - 1) := by
  cases c <;> rfl

end Category

namespace Operator

/-- The category of the left operand, which is also that of the whole. -/
def left : Operator → Category
  | add => .sum
  | sub => .sum
  | mul => .product
  | div => .product
  | pow => .power

/-- The category of the right operand. -/
def right : Operator → Category
  | add => .product
  | sub => .product
  | mul => .power
  | div => .power
  | pow => .unary

theorem level_left (o : Operator) : o.left.level = o.precedence := by cases o <;> rfl

theorem level_right (o : Operator) : o.right.level = o.precedence + 1 := by cases o <;> rfl

end Operator

/-- A derivation of the grammar. -/
inductive Phrase : Category → Type where
  | number (v : Float) : Phrase .primary
  | group (x : Phrase .sum) : Phrase .primary
  | call (f : Func) (x : Phrase .sum) : Phrase .primary
  | ofPrimary (x : Phrase .primary) : Phrase .suffixed
  | factorial (x : Phrase .suffixed) : Phrase .suffixed
  | ofSuffixed (x : Phrase .suffixed) : Phrase .unary
  /-- A negation written with the minus sign. -/
  | minus (x : Phrase .unary) : Phrase .unary
  /-- A negation written with its own token. -/
  | negate (x : Phrase .unary) : Phrase .unary
  | ofUnary (x : Phrase .unary) : Phrase .power
  | ofPower (x : Phrase .power) : Phrase .product
  | ofProduct (x : Phrase .product) : Phrase .sum
  | binary (o : Operator) (x : Phrase o.left) (y : Phrase o.right) : Phrase o.left

namespace Phrase

variable {c : Category}

/-- The tokens that a derivation spells. -/
def tokens {c : Category} : Phrase c → List Token
  | number v => [.number v]
  | group x => .openGroup :: x.tokens ++ [.closeGroup]
  | call f x => .name f.name :: .openGroup :: x.tokens ++ [.closeGroup]
  | ofPrimary x => x.tokens
  | factorial x => x.tokens ++ [.factorial]
  | ofSuffixed x => x.tokens
  | minus x => .operator .sub :: x.tokens
  | negate x => .negate :: x.tokens
  | ofUnary x => x.tokens
  | ofPower x => x.tokens
  | ofProduct x => x.tokens
  | binary o x y => x.tokens ++ .operator o :: y.tokens

/-- The expression that a derivation stands for. -/
def tree {c : Category} : Phrase c → Expr
  | number v => .number v
  | group x => x.tree
  | call f x => .call f x.tree
  | ofPrimary x => x.tree
  | factorial x => .factorial x.tree
  | ofSuffixed x => x.tree
  | minus x => .negate x.tree
  | negate x => .negate x.tree
  | ofUnary x => x.tree
  | ofPower x => x.tree
  | ofProduct x => x.tree
  | binary o x y => .binary o x.tree y.tree

/-- The greatest number of groups, those of calls included, around a token. -/
def nesting {c : Category} : Phrase c → Nat
  | number _ => 0
  | group x => x.nesting + 1
  | call _ x => x.nesting + 1
  | ofPrimary x => x.nesting
  | factorial x => x.nesting
  | ofSuffixed x => x.nesting
  | minus x => x.nesting
  | negate x => x.nesting
  | ofUnary x => x.nesting
  | ofPower x => x.nesting
  | ofProduct x => x.nesting
  | binary _ x y => max x.nesting y.nesting

/-! ## Looser categories -/

/-- The same derivation as one of the next looser category. -/
def loosen : {c : Category} → Phrase c → Phrase c.looser
  | .primary, x => .ofPrimary x
  | .suffixed, x => .ofSuffixed x
  | .unary, x => .ofUnary x
  | .power, x => .ofPower x
  | .product, x => .ofProduct x
  | .sum, x => x

theorem tokens_loosen (x : Phrase c) : x.loosen.tokens = x.tokens := by cases c <;> rfl

theorem tree_loosen (x : Phrase c) : x.loosen.tree = x.tree := by cases c <;> rfl

theorem nesting_loosen (x : Phrase c) : x.loosen.nesting = x.nesting := by cases c <;> rfl

/-- A derivation is one of every looser category, with the same tokens and the same tree. -/
theorem exists_of_level_le (x : Phrase c) (d : Category) (looser : d.level ≤ c.level) :
    ∃ y : Phrase d, y.tokens = x.tokens ∧ y.tree = x.tree ∧ y.nesting = x.nesting := by
  generalize steps : c.level - d.level = n
  induction n generalizing c with
  | zero =>
      have same : c = d := Category.level_injective c d (by omega)
      subst same
      exact ⟨x, rfl, rfl, rfl⟩
  | succ n ih =>
      have down := c.level_looser
      have positive := d.level_pos
      obtain ⟨y, tokens, tree, nesting⟩ := ih x.loosen (by omega) (by omega)
      exact ⟨y, tokens.trans x.tokens_loosen, tree.trans x.tree_loosen,
        nesting.trans x.nesting_loosen⟩

/-! ## Phrases side by side -/

/-- A phrase no tighter than what an operator makes goes on with the operator, whose left operand is
as much of its end as is tight enough. -/
theorem exists_append {c : Category} (x : Phrase c) (o : Operator) (y : Phrase o.right)
    (loose : c.level ≤ o.left.level) :
    ∃ z : Phrase c, z.tokens = x.tokens ++ .operator o :: y.tokens := by
  rcases Nat.eq_or_lt_of_le loose with same | looser
  · obtain rfl := Category.level_injective c o.left same
    exact ⟨binary o x y, rfl⟩
  have loosest : o.left.level ≤ 3 := by cases o <;> decide
  cases x with
  | ofPower x =>
      obtain ⟨z, tokens⟩ := exists_append x o y looser
      exact ⟨ofPower z, tokens⟩
  | ofProduct x =>
      obtain ⟨z, tokens⟩ := exists_append x o y looser
      exact ⟨ofProduct z, tokens⟩
  | binary o' u v =>
      have within : o'.right.level ≤ o.left.level := by
        rw [o'.level_left] at looser
        rw [o'.level_right]
        exact looser
      obtain ⟨z, tokens⟩ := exists_append v o y within
      exact ⟨binary o' u z, by simp [Phrase.tokens, tokens]⟩
  | _ => exact absurd (Nat.lt_of_lt_of_le looser loosest) (by decide)

/-- **An operator joins any two phrases**, whatever they are made of: the operators of the second
go on from what the first has become. -/
theorem exists_join (x : Phrase .sum) (o : Operator) (y : Phrase c) :
    ∃ z : Phrase .sum, z.tokens = x.tokens ++ .operator o :: y.tokens := by
  have tight {d : Category} (y : Phrase d) (high : 4 ≤ d.level) :
      ∃ z : Phrase .sum, z.tokens = x.tokens ++ .operator o :: y.tokens := by
    have below : o.right.level ≤ 4 := by cases o <;> decide
    obtain ⟨y', same, -⟩ := y.exists_of_level_le o.right (Nat.le_trans below high)
    rw [← same]
    exact x.exists_append o y' (by cases o <;> decide)
  induction y with
  | ofUnary y ih | ofPower y ih | ofProduct y ih => exact ih
  | binary o' u v ihu ihv =>
      obtain ⟨z, tokens⟩ := ihu
      obtain ⟨w, whole⟩ := z.exists_append o' v (by cases o' <;> decide)
      exact ⟨w, by simp [whole, tokens, Phrase.tokens]⟩
  | number v => exact tight (number v) (by decide)
  | group y => exact tight (group y) (by decide)
  | call f y => exact tight (call f y) (by decide)
  | ofPrimary y => exact tight (ofPrimary y) (by decide)
  | factorial y => exact tight (factorial y) (by decide)
  | ofSuffixed y => exact tight (ofSuffixed y) (by decide)
  | minus y => exact tight (minus y) (by decide)
  | negate y => exact tight (negate y) (by decide)

end Phrase

end SciCalc
