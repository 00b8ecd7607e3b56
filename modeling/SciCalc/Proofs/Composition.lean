/-
# SciCalc.Proofs.Composition -- entries made of entries

An entry is read as a tree (`ReadsAs`) when some limits and all higher ones let
it be read and give that tree.  Which tree that is hangs on the grammar alone, so
any limits that let the entry be read at all give it (`readsAs_of_read`).

So entries can be put together without a look at what is inside them: between
parentheses an entry keeps its tree, and a sign, the name of a function or root
signs around it, or a sign between two of them, make the node that they name
(`ReadsAs.compose`).
-/
import SciCalc.Evaluation
import SciCalc.Proofs.Postfix.Soundness
import SciCalc.Proofs.Spelling

namespace SciCalc

set_option autoImplicit false

open SciCalc.Expr (grouped)

/-! ## Reading within limits -/

namespace Settings

/-- Whether no limit is lower than the same one of `least`. -/
structure Covers (s least : Settings) : Prop where
  tokens : least.maxTokens ≤ s.maxTokens
  nesting : least.maxNesting ≤ s.maxNesting
  height : least.maxHeight ≤ s.maxHeight

theorem covers_self (s : Settings) : s.Covers s := ⟨Nat.le_refl _, Nat.le_refl _, Nat.le_refl _⟩

/-- The limits that a phrase needs. -/
def forPhrase (d : Phrase .sum) : Settings :=
  { maxTokens := d.tokens.length, maxNesting := d.nesting, maxHeight := d.tree.height }

/-- **An entry is read in four stages**, and nothing else is asked of it. -/
theorem read_eq_ok_iff {s : Settings} {entry : Text} {r : Reading} :
    s.read entry = .ok r ↔
      r.normalized = normalize entry ∧ Token.read r.normalized = .ok r.tokens ∧
        s.admitTokens r.tokens = .ok () ∧
        Postfix.ofTokens s.maxNesting r.tokens = .ok r.postfixList ∧
        Postfix.tree s.maxHeight r.postfixList = .ok r.tree := by
  constructor
  · intro done
    unfold read at done
    simp only at done
    split at done
    · cases done
    obtain ⟨ts, tokens, done⟩ := Token.bind_eq_ok done
    obtain ⟨⟨⟩, few, done⟩ := Token.bind_eq_ok done
    obtain ⟨listed, yard, done⟩ := Token.bind_eq_ok done
    obtain ⟨e, built, done⟩ := Token.bind_eq_ok done
    obtain rfl := Except.ok.inj done
    exact ⟨rfl, tokens, few, yard, built⟩
  · obtain ⟨normalized, ts, listed, e⟩ := r
    rintro ⟨rfl, tokens, few, yard, built⟩
    simp only at tokens few yard built
    have shown : (normalize entry).isEmpty = false := by
      cases empty : normalize entry with
      | nil =>
          rw [empty] at tokens
          obtain rfl := Except.ok.inj tokens
          cases yard
      | cons c rest => rfl
    simp only [read, shown, tokens, few, yard, built, bind, Except.bind, pure, Except.pure,
      Bool.false_eq_true, if_false]

/-- A text that spells a phrase is read as it wherever the limits admit the phrase. -/
theorem read_of_spells {s : Settings} {entry : Text} {d : Phrase .sum} (spells : Spells entry d)
    (covers : s.Covers (forPhrase d)) :
    s.read entry = .ok ⟨normalize entry, d.tokens, d.tree.postorder, d.tree⟩ :=
  read_eq_ok_iff.2 ⟨rfl, spells, if_neg (Nat.not_lt.2 covers.tokens),
    d.ofTokens_tokens covers.nesting, Postfix.tree_postorder_of_le covers.height⟩

/-- Whatever is read spells a phrase, and the tokens and the tree are those of the phrase. -/
theorem exists_phrase_of_read {s : Settings} {entry : Text} {r : Reading}
    (done : s.read entry = .ok r) :
    ∃ d : Phrase .sum, Spells entry d ∧ d.tokens = r.tokens ∧ d.tree = r.tree := by
  obtain ⟨normalized, tokens, -, yard, built⟩ := read_eq_ok_iff.1 done
  obtain ⟨d, same, -, listed⟩ := Postfix.ofTokens_eq_ok_iff.1 yard
  rw [← listed] at built
  refine ⟨d, ?_, same, (Postfix.eq_of_tree_postorder built).symm⟩
  rw [Spells, ← normalized, same, tokens]

end Settings

/-- An entry is read as a tree, given limits that are high enough for it. -/
def ReadsAs (entry : Text) (e : Expr) : Prop :=
  ∃ least : Settings, ∀ s : Settings, s.Covers least → (s.read entry).map Reading.tree = .ok e

/-- A text that spells a tree is read as it. -/
theorem SpellsTree.readsAs {t : Text} {c : Category} {e : Expr} {n : Nat}
    (spells : SpellsTree t c e n) : ReadsAs t e := by
  obtain ⟨x, phrase, rfl, -⟩ := spells.looser .sum c.level_pos
  refine ⟨Settings.forPhrase x, fun s covers => ?_⟩
  rw [Settings.read_of_spells phrase covers]
  rfl

/-- Whatever is read is spelled. -/
theorem exists_spellsTree_of_read {s : Settings} {entry : Text} {e : Expr}
    (done : (s.read entry).map Reading.tree = .ok e) : ∃ n, SpellsTree entry .sum e n := by
  cases read : s.read entry with
  | error fault =>
      rw [read] at done
      cases done
  | ok r =>
      rw [read] at done
      obtain rfl := Except.ok.inj done
      obtain ⟨d, spells, -, tree⟩ := Settings.exists_phrase_of_read read
      exact ⟨d.nesting, d, spells, tree, Nat.le_refl _⟩

/-- **Any limits that let an entry be read** give the tree that all higher ones give. -/
theorem readsAs_of_read {s : Settings} {entry : Text} {e : Expr}
    (done : (s.read entry).map Reading.tree = .ok e) : ReadsAs entry e := by
  obtain ⟨n, spells⟩ := exists_spellsTree_of_read done
  exact spells.readsAs

theorem ReadsAs.spellsTree {entry : Text} {e : Expr} (reads : ReadsAs entry e) :
    ∃ n, SpellsTree entry .sum e n := by
  obtain ⟨least, reads⟩ := reads
  exact exists_spellsTree_of_read (reads least least.covers_self)

/-- No entry is read as two trees: limits as high as either asks for are those of both. -/
theorem ReadsAs.unique {entry : Text} {a b : Expr} (first : ReadsAs entry a)
    (second : ReadsAs entry b) : a = b := by
  obtain ⟨least, first⟩ := first
  obtain ⟨least', second⟩ := second
  let both : Settings :=
    { maxTokens := max least.maxTokens least'.maxTokens
      maxNesting := max least.maxNesting least'.maxNesting
      maxHeight := max least.maxHeight least'.maxHeight }
  have read := first both ⟨Nat.le_max_left _ _, Nat.le_max_left _ _, Nat.le_max_left _ _⟩
  have read' := second both ⟨Nat.le_max_right _ _, Nat.le_max_right _ _, Nat.le_max_right _ _⟩
  exact Except.ok.inj (read.symm.trans read')

/-! ## Entries made of entries -/

namespace ReadsAs

variable {s t : Text} {a b : Expr}

theorem group (reads : ReadsAs s a) : ReadsAs (grouped s) a := by
  obtain ⟨n, spells⟩ := reads.spellsTree
  exact (spells.group .sum).readsAs

theorem negate (reads : ReadsAs s a) : ReadsAs ('-' :: grouped s) (.negate a) := by
  obtain ⟨n, spells⟩ := reads.spellsTree
  exact spells.negate.readsAs

theorem call (reads : ReadsAs s a) (f : Func) : ReadsAs (f.name ++ grouped s) (.call f a) := by
  obtain ⟨n, spells⟩ := reads.spellsTree
  exact (spells.call f).readsAs

theorem factorial (reads : ReadsAs s a) : ReadsAs (grouped s ++ ['!']) (.factorial a) := by
  obtain ⟨n, spells⟩ := reads.spellsTree
  exact (spells.group .suffixed).factorial.readsAs

theorem product (first : ReadsAs s a) (second : ReadsAs t b) :
    ReadsAs (grouped s ++ grouped t) (.binary .mul a b) := by
  obtain ⟨n, spells⟩ := first.spellsTree
  obtain ⟨n', spells'⟩ := second.spellsTree
  exact (spells.product spells').readsAs

theorem roots (reads : ReadsAs s a) (k : Nat) :
    ReadsAs (List.replicate k '√' ++ grouped s) ((Expr.call .sqrt)^[k] a) := by
  obtain ⟨n, spells⟩ := reads.spellsTree
  obtain ⟨m, rooted⟩ := spells.roots k
  exact rooted.readsAs

theorem binary (first : ReadsAs s a) (second : ReadsAs t b) (o : Operator) {sign : Text}
    (spelled : sign ∈ o.spellings) {gap gap' : Text} (blank : ∀ c ∈ gap ++ gap', isBlank c = true) :
    ReadsAs (grouped s ++ gap ++ sign ++ gap' ++ grouped t) (.binary o a b) := by
  obtain ⟨n, spells⟩ := first.spellsTree
  obtain ⟨n', spells'⟩ := second.spellsTree
  exact (SpellsTree.binary spelled blank (spells.group o.left) (spells'.group o.right)).readsAs

end ReadsAs

/-- **Reading is compositional.**  Whatever entries `s` and `t` are read as, an entry made of them
is read as the tree made of their trees. -/
theorem ReadsAs.compose {s t : Text} {a b : Expr} (first : ReadsAs s a) (second : ReadsAs t b) :
    ReadsAs (grouped s) a ∧
      ReadsAs ('-' :: grouped s) (.negate a) ∧
      (∀ f : Func, ReadsAs (f.name ++ grouped s) (.call f a)) ∧
      ReadsAs (grouped s ++ ['!']) (.factorial a) ∧
      (∀ o : Operator, ∀ sign ∈ o.spellings, ∀ gap gap' : Text,
        (∀ c ∈ gap ++ gap', isBlank c = true) →
          ReadsAs (grouped s ++ gap ++ sign ++ gap' ++ grouped t) (.binary o a b)) ∧
      ReadsAs (grouped s ++ grouped t) (.binary .mul a b) ∧
      ∀ n : Nat, ReadsAs (List.replicate n '√' ++ grouped s) ((Expr.call .sqrt)^[n] a) :=
  ⟨first.group, first.negate, first.call, first.factorial,
    fun o _ spelled _ _ blank => first.binary second o spelled blank, first.product second,
    first.roots⟩

/-- The entries `√ 2Pi` and `3!`: the roots of the first are not those of what stands around it. -/
theorem ReadsAs.compose_roots :
    let root : Expr := .binary .mul (.call .sqrt (.number 2)) (.number 3.141592653589793)
    let fact : Expr := .factorial (.number 3)
    ReadsAs "√ 2Pi" root ∧ ReadsAs "3!" fact ∧
      ReadsAs "(√ 2Pi) − (3!)" (.binary .sub root fact) ∧
      ReadsAs "√√(√ 2Pi)" (.call .sqrt (.call .sqrt root)) := by
  intro root fact
  have first : ReadsAs "√ 2Pi" root := readsAs_of_read (s := {}) rfl
  have second : ReadsAs "3!" fact := readsAs_of_read (s := {}) rfl
  obtain ⟨-, -, -, -, signs, -, roots⟩ := ReadsAs.compose first second
  exact ⟨first, second, signs .sub "−" (by decide) " " " " (List.all_eq_true.1 rfl), roots 2⟩

end SciCalc
