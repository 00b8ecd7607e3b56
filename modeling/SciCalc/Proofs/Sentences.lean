/-
# SciCalc.Proofs.Sentences -- well-formed entries fail for arithmetic reasons only

A `Sentence` is an entry made by the rules

    atom     := literal | 'pi' | 'e' | '-' literal | digits '!'
    literal  := digits | digits '.' digits
    sentence := atom | '(' sentence sign sentence ')' | '(' sentence ')' '^' atom
              | '(' sentence ')' '(' sentence ')' | '-' '(' sentence ')' | f '(' sentence ')'

with one of the four signs `+`, `-`, `*`, `/` and each literal a finite double.
`Sentence.text` is what is typed; `Sentence.tokens`, `Sentence.nesting` and
`Sentence.tree` say what it means, the last with one rule that is not seen in the
text: factors group to the left, so a product without a sign after `*` or `/`
gives away its first factor.

The text is read as those tokens (`Sentence.exists_spells`), which are those of a
phrase with that tree (`Sentence.exists_phrase`).  So within limits that admit
the sentence only the value of the tree can fail, and its faults are those of
single operations (`Sentence.evaluate_text`).
-/
import SciCalc.Proofs.Execution
import SciCalc.Proofs.Written

namespace SciCalc

set_option autoImplicit false

open SciCalc.Expr (grouped)

/-! ## Sentences -/

/-- Digits, or digits, a point and digits, that denote a finite double. -/
structure Literal where
  whole : Text
  /-- The digits after the point; without any there is no point. -/
  fraction : Text := []
  whole_ne_nil : whole ≠ []
  isDigit : ∀ c ∈ whole ++ fraction, c.isDigit = true
  isFinite : (Decimal.ofDigits whole fraction).toFloat.isFinite = true

namespace Literal

/-- What is typed. -/
def text (n : Literal) : Text :=
  if n.fraction = [] then n.whole else n.whole ++ '.' :: n.fraction

/-- The double that is denoted. -/
def value (n : Literal) : Float := (Decimal.ofDigits n.whole n.fraction).toFloat

end Literal

namespace Constant

/-- What is typed. -/
def name : Constant → Text
  | pi => "pi"
  | euler => "e"

/-- The double that is denoted. -/
def value : Constant → Float
  | pi => 3.141592653589793
  | euler => 2.718281828459045

end Constant

/-- The least of the well-formed entries. -/
inductive Atom where
  | literal (n : Literal)
  | constant (k : Constant)
  | negative (n : Literal)
  /-- Digits alone and the sign of the factorial. -/
  | factorial (n : Literal) (noPoint : n.fraction = [])

namespace Atom

/-- What is typed. -/
def text : Atom → Text
  | literal n => n.text
  | constant k => k.name
  | negative n => '-' :: n.text
  | factorial n _ => n.text ++ ['!']

/-- The derivation of an atom; a minus sign belongs to its literal. -/
def phrase : Atom → Phrase .suffixed
  | literal n => .ofPrimary (.number n.value)
  | constant k => .ofPrimary (.number k.value)
  | negative n => .ofPrimary (.number (-n.value))
  | factorial n _ => .factorial (.ofPrimary (.number n.value))

end Atom

/-- A well-formed entry. -/
inductive Sentence where
  | atom (a : Atom)
  /-- Two sentences around a sign, between parentheses. -/
  | binary (o : Operator) (noPower : o ≠ .pow) (a b : Sentence)
  | power (a : Sentence) (exponent : Atom)
  /-- Two sentences side by side, each between parentheses. -/
  | product (a b : Sentence)
  | negate (a : Sentence)
  | call (f : Func) (a : Sentence)

namespace Sentence

/-- What is typed. -/
def text : Sentence → Text
  | atom a => a.text
  | binary o _ a b => grouped (a.text ++ o.sign :: b.text)
  | power a x => grouped a.text ++ '^' :: x.text
  | product a b => grouped a.text ++ grouped b.text
  | negate a => '-' :: grouped a.text
  | call f a => f.name ++ grouped a.text

/-- Tokens between parentheses. -/
def groupedTokens (ts : List Token) : List Token := .openGroup :: ts ++ [.closeGroup]

/-- The tokens of a sentence, the sign between two groups among them. -/
def tokens : Sentence → List Token
  | atom a => a.phrase.tokens
  | binary o _ a b => groupedTokens (a.tokens ++ .operator o :: b.tokens)
  | power a x => groupedTokens a.tokens ++ .operator .pow :: x.phrase.tokens
  | product a b => groupedTokens a.tokens ++ .operator .mul :: groupedTokens b.tokens
  | negate a => .operator .sub :: groupedTokens a.tokens
  | call f a => .name f.name :: groupedTokens a.tokens

/-- The greatest number of parentheses around a token. -/
def nesting : Sentence → Nat
  | atom _ => 0
  | binary _ _ a b => max a.nesting b.nesting + 1
  | power a _ => a.nesting + 1
  | product a b => max a.nesting b.nesting + 1
  | negate a => a.nesting + 1
  | call _ a => a.nesting + 1

/-- The tree of a sentence.  Factors group to the left: after `*` or `/` a product of two groups
gives its first factor to that sign. -/
def tree : Sentence → Expr
  | atom a => a.phrase.tree
  | binary o _ a (product b c) =>
    if o.right = .power then .binary .mul (.binary o a.tree b.tree) c.tree
    else .binary o a.tree (.binary .mul b.tree c.tree)
  | binary o _ a b => .binary o a.tree b.tree
  | power a x => .binary .pow a.tree x.phrase.tree
  | product a b => .binary .mul a.tree b.tree
  | negate a => .negate a.tree
  | call f a => .call f a.tree

end Sentence

/-! ## What is typed -/

namespace Literal

theorem readNumeral_text (n : Literal) : Token.readNumeral n.text = .ok n.value := by
  obtain ⟨digits, digits'⟩ := List.forall_mem_append.1 n.isDigit
  have denotes : Decimal.ofNumeral? n.text = some (Decimal.ofDigits n.whole n.fraction) := by
    rw [text]
    split
    · rename_i noPoint
      rw [Decimal.ofNumeral?_digits n.whole_ne_nil digits, noPoint]
    · rename_i point
      exact Decimal.ofNumeral?_point n.whole_ne_nil digits point digits'
  simp only [Token.readNumeral, denotes, n.isFinite, if_true]
  rfl

theorem text_ne_nil (n : Literal) : n.text ≠ [] := by
  rw [text]
  split
  · exact n.whole_ne_nil
  · simp

theorem isNumeral_of_mem_text (n : Literal) : ∀ c ∈ n.text, Decimal.isNumeral c = true := by
  intro c member
  have digit (among : c ∈ n.whole ++ n.fraction) : Decimal.isNumeral c = true := by
    simp [Decimal.isNumeral, n.isDigit c among]
  rw [text] at member
  split at member
  · exact digit (List.mem_append_left _ member)
  · rcases List.mem_append.1 member with member | member
    · exact digit (List.mem_append_left _ member)
    · rcases List.mem_cons.1 member with rfl | member
      · rfl
      · exact digit (List.mem_append_right _ member)

theorem spells (n : Literal) : Spells n.text (Phrase.number n.value) :=
  .numeral n.text_ne_nil n.isNumeral_of_mem_text n.readNumeral_text

end Literal

/-- An atom spells its derivation. -/
theorem Atom.spells (a : Atom) : Spells a.text a.phrase := by
  cases a with
  | literal n => exact n.spells
  | constant k => cases k <;> rfl
  | negative n => exact .signedNumeral n.text_ne_nil n.isNumeral_of_mem_text n.readNumeral_text
  | factorial n noPoint =>
      have operand : Spells n.text (Phrase.ofPrimary (.number n.value)) := n.spells
      exact operand.factorial

namespace Sentence

/-- **A sentence is read as its tokens.** -/
theorem exists_spells (s : Sentence) :
    ∃ d : Phrase .sum, Spells s.text d ∧ d.tokens = s.tokens := by
  induction s with
  | atom a =>
      obtain ⟨d, tokens, -⟩ := a.phrase.exists_of_level_le .sum (by decide)
      exact ⟨d, a.spells.of_tokens tokens, tokens⟩
  | binary o noPower a b iha ihb =>
      obtain ⟨x, first, tokens⟩ := iha
      obtain ⟨y, second, tokens'⟩ := ihb
      have visible : isBlank o.sign = false := by cases o <;> rfl
      have plain : Piece.plainSign o.sign = o.sign := by cases o <;> rfl
      obtain ⟨z, joined, whole⟩ := first.exists_join visible plain second
      obtain ⟨d, spells, -, -, same⟩ := joined.exists_grouped .sum
      refine ⟨d, spells, ?_⟩
      rw [same, Phrase.tokens, whole, tokens, tokens']
      rfl
  | power a x ih =>
      obtain ⟨y, base, tokens⟩ := ih
      obtain ⟨b, first, -, -, same⟩ := base.exists_grouped .sum
      obtain ⟨d, spells, whole⟩ := first.exists_join (o := .pow) (a := '^') rfl rfl x.spells
      refine ⟨d, spells, ?_⟩
      rw [whole, same, Phrase.tokens, tokens]
      rfl
  | product a b iha ihb =>
      obtain ⟨x, first, tokens⟩ := iha
      obtain ⟨y, second, tokens'⟩ := ihb
      obtain ⟨u, -, -, -, left⟩ := first.exists_grouped .product
      obtain ⟨v, -, -, -, right⟩ := second.exists_grouped .power
      have spells := first.product second left right
      obtain ⟨d, whole, -⟩ :=
        (Phrase.binary .mul u v : Phrase .product).exists_of_level_le .sum (by decide)
      refine ⟨d, spells.of_tokens whole, ?_⟩
      rw [whole]
      show u.tokens ++ .operator .mul :: v.tokens = _
      rw [left, right, Phrase.tokens, Phrase.tokens, tokens, tokens']
      rfl
  | negate a ih =>
      obtain ⟨x, operand, tokens⟩ := ih
      obtain ⟨u, group, -, -, same⟩ := operand.exists_grouped .unary
      obtain ⟨d, whole, -⟩ := (Phrase.minus u).exists_of_level_le .sum (by decide)
      refine ⟨d, (group.minus operand.head_grouped_ne).of_tokens whole, ?_⟩
      rw [whole, Phrase.tokens, same, Phrase.tokens, tokens]
      rfl
  | call f a ih =>
      obtain ⟨x, operand, tokens⟩ := ih
      obtain ⟨d, whole, -⟩ := (Phrase.call f x).exists_of_level_le .sum (by decide)
      refine ⟨d, (operand.call f).of_tokens whole, ?_⟩
      rw [whole, Phrase.tokens, tokens]
      rfl

end Sentence

/-! ## What is meant -/

/-- The tokens `ts` are a phrase of category `c` with the tree `e`, in no more than `n` groups. -/
def Yields (c : Category) (ts : List Token) (e : Expr) (n : Nat) : Prop :=
  ∃ x : Phrase c, x.tokens = ts ∧ x.tree = e ∧ x.nesting ≤ n

namespace Yields

variable {c : Category} {ts us : List Token} {a b e : Expr} {n n' : Nat}

theorem looser (yields : Yields c ts e n) (c' : Category) (low : c'.level ≤ c.level) :
    Yields c' ts e n := by
  obtain ⟨x, rfl, rfl, shallow⟩ := yields
  obtain ⟨y, tokens, tree, nesting⟩ := x.exists_of_level_le c' low
  exact ⟨y, tokens, tree, by omega⟩

theorem mono (yields : Yields c ts e n) (more : n ≤ n') : Yields c ts e n' := by
  obtain ⟨x, tokens, tree, shallow⟩ := yields
  exact ⟨x, tokens, tree, Nat.le_trans shallow more⟩

theorem group (yields : Yields c ts e n) (c' : Category) :
    Yields c' (Sentence.groupedTokens ts) e (n + 1) := by
  obtain ⟨x, rfl, rfl, shallow⟩ := yields.looser .sum c.level_pos
  have primary : Yields .primary (Sentence.groupedTokens x.tokens) x.tree (n + 1) := by
    refine ⟨.group x, rfl, rfl, ?_⟩
    rw [Phrase.nesting]
    omega
  exact primary.looser c' (by cases c' <;> decide)

theorem call (yields : Yields c ts e n) (f : Func) :
    Yields .primary (.name f.name :: Sentence.groupedTokens ts) (.call f e) (n + 1) := by
  obtain ⟨x, rfl, rfl, shallow⟩ := yields.looser .sum c.level_pos
  refine ⟨.call f x, rfl, rfl, ?_⟩
  rw [Phrase.nesting]
  omega

theorem minus (yields : Yields .unary ts e n) :
    Yields .unary (.operator .sub :: ts) (.negate e) n := by
  obtain ⟨x, rfl, rfl, shallow⟩ := yields
  exact ⟨.minus x, rfl, rfl, shallow⟩

theorem binary (o : Operator) (first : Yields o.left ts a n) (second : Yields o.right us b n') :
    Yields o.left (ts ++ .operator o :: us) (.binary o a b) (max n n') := by
  obtain ⟨x, rfl, rfl, shallow⟩ := first
  obtain ⟨y, rfl, rfl, shallow'⟩ := second
  refine ⟨.binary o x y, rfl, rfl, ?_⟩
  rw [Phrase.nesting]
  omega

end Yields

namespace Sentence

/-- The tightest category of a sentence. -/
def category : Sentence → Category
  | atom _ => .suffixed
  | binary _ _ _ _ => .primary
  | power _ _ => .power
  | product _ _ => .product
  | negate _ => .unary
  | call _ _ => .primary

/-- Every sentence can stand before a sign. -/
theorem level_left_le {o : Operator} (noPower : o ≠ .pow) (s : Sentence) :
    o.left.level ≤ s.category.level := by
  have low : o.left.level ≤ 2 := by
    revert noPower
    cases o <;> decide
  refine Nat.le_trans low ?_
  cases s <;> simp [category, Category.level]

/-- Only a product of two groups cannot stand after every sign. -/
theorem level_right_le {o : Operator} (noPower : o ≠ .pow) {s : Sentence}
    (noProduct : ∀ a b, s = product a b → False) : o.right.level ≤ s.category.level := by
  have low : o.right.level ≤ 3 := by
    revert noPower
    cases o <;> decide
  refine Nat.le_trans low ?_
  cases s with
  | product a b => exact absurd rfl (noProduct a b)
  | _ => simp [category, Category.level]

/-- **The tokens of a sentence are those of a phrase with its tree.** -/
theorem yields (s : Sentence) : Yields s.category s.tokens s.tree s.nesting := by
  induction s using tree.induct with
  | case1 a => exact ⟨a.phrase, rfl, rfl, by cases a <;> exact Nat.le_refl 0⟩
  | case2 o noPower a b c isFactor iha ihb ihc =>
      -- the sign takes the first factor, and what it makes is the left operand of the product
      have tight : Category.product.level ≤ o.left.level := by
        revert isFactor
        cases o <;> decide
      have first := iha.looser o.left (level_left_le noPower a)
      have left := (first.binary o (ihb.group o.right)).looser .product tight
      have whole := (left.binary .mul (ihc.group .power)).group .primary
      rw [tree, if_pos isFactor]
      simp only [List.append_assoc, List.cons_append] at whole
      refine whole.mono ?_
      simp only [nesting]
      omega
  | case3 o noPower a b c noFactor iha ihb ihc =>
      have loose : o.right.level ≤ Category.product.level := by
        revert noPower noFactor
        cases o <;> decide
      have first := iha.looser o.left (level_left_le noPower a)
      have factors : Yields .product (product b c).tokens (.binary .mul b.tree c.tree) _ :=
        (ihb.group .product).binary .mul (ihc.group .power)
      rw [tree, if_neg noFactor]
      refine ((first.binary o (factors.looser o.right loose)).group .primary).mono ?_
      simp only [nesting]
      omega
  | case4 o noPower a b noProduct iha ihb =>
      have first := iha.looser o.left (level_left_le noPower a)
      have second := ihb.looser o.right (level_right_le noPower noProduct)
      rw [tree]
      · exact (first.binary o second).group .primary
      · exact noProduct
  | case5 a x ih =>
      have exponent : Yields .unary x.phrase.tokens x.phrase.tree 0 :=
        ⟨.ofSuffixed x.phrase, rfl, rfl, by cases x <;> exact Nat.le_refl 0⟩
      exact ((ih.group .power).binary .pow exponent).mono (by simp [nesting])
  | case6 a b iha ihb =>
      refine ((iha.group .product).binary .mul (ihb.group .power)).mono ?_
      simp only [nesting]
      omega
  | case7 a ih => exact (ih.group .unary).minus
  | case8 f a ih => exact ih.call f

/-- **A sentence spells a phrase** that has its tokens and its tree. -/
theorem exists_phrase (s : Sentence) :
    ∃ d : Phrase .sum, Spells s.text d ∧ d.tokens = s.tokens ∧ d.tree = s.tree ∧
      d.nesting ≤ s.nesting := by
  obtain ⟨x, spells, same⟩ := s.exists_spells
  obtain ⟨d, tokens, tree, shallow⟩ := s.yields.looser .sum s.category.level_pos
  exact ⟨d, spells.of_tokens (tokens.trans same.symm), tokens, tree, shallow⟩

end Sentence

/-! ## What can fail -/

/-- The faults of single operations are of three classes. -/
theorem Fault.kind_of_ofOperation {fault : Fault} (own : fault.ofOperation = true) :
    fault.kind ∈ [Kind.divisionByZero, .domain, .overflow] := by
  cases fault with
  | outOfDomain cause => simp [kind]
  | tooLarge cause => simp [kind]
  | divisionByZero => simp [kind]
  | _ => cases own

/-- The value of a tree fails for arithmetic reasons only. -/
theorem Expr.kind_of_value {lib : Elementary} {mode : AngleMode} {e : Expr} {fault : Fault}
    (fails : e.value lib mode = .error fault) :
    fault.kind ∈ [Kind.divisionByZero, .domain, .overflow] := by
  rw [← fault.kind_innermost]
  exact Fault.kind_of_ofOperation (ofOperation_of_value fails)

namespace Sentence

variable {settings : Settings} {s : Sentence}

/-- Within its limits a sentence is read as its tokens and its tree. -/
theorem read_text (few : s.tokens.length ≤ settings.maxTokens)
    (shallow : s.nesting ≤ settings.maxNesting) (low : s.tree.height ≤ settings.maxHeight) :
    settings.read s.text = .ok ⟨normalize s.text, s.tokens, s.tree.postorder, s.tree⟩ := by
  obtain ⟨d, spells, tokens, tree, nests⟩ := s.exists_phrase
  have covers : settings.Covers (.forPhrase d) := by
    constructor
    · show d.tokens.length ≤ settings.maxTokens
      rwa [tokens]
    · exact Nat.le_trans nests shallow
    · show d.tree.height ≤ settings.maxHeight
      rwa [tree]
  rw [Settings.read_of_spells spells covers, tokens, tree]

/-- **A well-formed entry fails for arithmetic reasons only.**  Within limits that are no lower than
the number of its tokens, the nesting of its parentheses and the height of its tree, a sentence is
read as those tokens and that tree; and either it has a value or it divides by zero, leaves the
domain of an operation or has a result too large for a double. -/
theorem evaluate_text (lib : Elementary) (s : Sentence) (settings : Settings)
    (few : s.tokens.length ≤ settings.maxTokens) (shallow : s.nesting ≤ settings.maxNesting)
    (low : s.tree.height ≤ settings.maxHeight) :
    settings.read s.text = .ok ⟨normalize s.text, s.tokens, s.tree.postorder, s.tree⟩ ∧
      ((∃ result, settings.evaluate lib s.text = .ok result) ∨
        ∃ fault : Fault, settings.evaluate lib s.text = .error fault ∧
          fault.kind ∈ [Kind.divisionByZero, .domain, .overflow]) := by
  have read := read_text few shallow low
  refine ⟨read, ?_⟩
  rw [Settings.evaluate, read]
  show (∃ result, (s.tree.value lib settings.mode >>= _) = .ok result) ∨
    ∃ fault : Fault, (s.tree.value lib settings.mode >>= _) = .error fault ∧ _
  cases value : s.tree.value lib settings.mode with
  | ok v =>
      left
      exact ⟨_, rfl⟩
  | error fault =>
      right
      exact ⟨fault, rfl, Expr.kind_of_value value⟩

/-- In `sqrt((5!/(0)(-2.5)))` the quotient takes the first factor, with limits that just do. -/
theorem evaluate_text_root :
    let five : Literal := ⟨['5'], [], by decide, List.all_eq_true.1 rfl, by decide +kernel⟩
    let zero : Literal := ⟨['0'], [], by decide, List.all_eq_true.1 rfl, by decide +kernel⟩
    let half : Literal := ⟨['2'], ['5'], by decide, List.all_eq_true.1 rfl, by decide +kernel⟩
    let factors : Sentence := .product (.atom (.literal zero)) (.atom (.negative half))
    let s : Sentence := .call .sqrt (.binary .div nofun (.atom (.factorial five rfl)) factors)
    let settings : Settings := { maxTokens := 15, maxNesting := 3, maxHeight := 5 }
    let quotient : Expr := .binary .div (.factorial (.number 5)) (.number 0)
    s.text = "sqrt((5!/(0)(-2.5)))".toList ∧
      (s.tokens.length ≤ 15 ∧ s.nesting ≤ 3 ∧ s.tree.height ≤ 5) ∧
      (settings.read s.text).map Reading.tree =
        .ok (.call .sqrt (.binary .mul quotient (.number (-2.5)))) ∧
      settings.evaluate .machine s.text = .error (.within "sqrt" .divisionByZero) := by
  intro five zero half factors s settings quotient
  have few : s.tokens.length ≤ 15 := by decide
  have shallow : s.nesting ≤ 3 := by decide
  have low : s.tree.height ≤ 5 := by decide
  have tree : s.tree = .call .sqrt (.binary .mul quotient (.number (-2.5))) := by decide +kernel
  have value : s.tree.value .machine .degrees = .error (.within "sqrt" .divisionByZero) := by
    decide +kernel
  obtain ⟨read, -⟩ := evaluate_text .machine s settings few shallow low
  refine ⟨rfl, ⟨few, shallow, low⟩, ?_, ?_⟩
  · rw [read]
    exact congrArg Except.ok tree
  · rw [Settings.evaluate, read]
    show (s.tree.value .machine .degrees >>= _) = _
    rw [value]
    rfl

end Sentence

end SciCalc
