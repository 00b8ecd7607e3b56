/-
# SciCalc.Proofs.Postfix.Soundness -- only phrases are read

The waiting list of a yard is a derivation in progress: each entry stands for
the tokens of a phrase that lacks its last operand (`Partial`).  After an operand
the tokens read so far are such a derivation and one suffixed phrase more
(`Yard.Explains`), whatever the token was (`Yard.explains_of_moves`).

Releasing entries puts finished phrases into the ones below them
(`Partial.unwind`); where everything is released, one phrase is left, so
`Postfix.exists_phrase_of_ofTokens`: a list of tokens with a postfix list is the
yield of a phrase, nested within the limit.  Together with the other direction
this says which lists there are (`Postfix.ofTokens_eq_ok_iff`).
-/
import SciCalc.Proofs.Postfix.Completeness

namespace SciCalc

set_option autoImplicit false

namespace Postfix

/-- The tokens `ts`, which end where an operand is due, leave `w` waiting: each entry is a phrase
without its last operand, in no more than `maxNesting` groups. -/
inductive Partial (maxNesting : Nat) : List Pending → List Token → Prop
  | start : Partial maxNesting [] []
  | group {w : List Pending} {ts : List Token} (below : Partial maxNesting w ts)
      (fits : Pending.groups w + 1 ≤ maxNesting) :
      Partial maxNesting (.group :: w) (ts ++ [.openGroup])
  | call {w : List Pending} {ts : List Token} (f : Func) (below : Partial maxNesting w ts)
      (carries : Pending.Carries .primary w) :
      Partial maxNesting (.call f :: w) (ts ++ [.name f.name])
  | minus {w : List Pending} {ts : List Token} (below : Partial maxNesting w ts)
      (carries : Pending.Carries .unary w) :
      Partial maxNesting (.negate :: w) (ts ++ [.operator .sub])
  | negate {w : List Pending} {ts : List Token} (below : Partial maxNesting w ts)
      (carries : Pending.Carries .unary w) :
      Partial maxNesting (.negate :: w) (ts ++ [.negate])
  | operator {w : List Pending} {ts : List Token} (o : Operator) (x : Phrase o.left)
      (below : Partial maxNesting w ts) (carries : Pending.Carries o.left w)
      (fits : Pending.groups w + x.nesting ≤ maxNesting) :
      Partial maxNesting (.operator o :: w) (ts ++ x.tokens ++ [.operator o])

/-- The tokens `ts` end with a phrase of category `c` on top of what leaves `w` waiting. -/
def Ends (maxNesting : Nat) (c : Category) (w : List Pending) (ts : List Token) : Prop :=
  ∃ us, ∃ x : Phrase c, Partial maxNesting w us ∧ Pending.Carries c w ∧
    Pending.groups w + x.nesting ≤ maxNesting ∧ ts = us ++ x.tokens

variable {maxNesting : Nat} {c d : Category} {w held : List Pending} {ts : List Token}

/-- A phrase is one of every looser category that what waits can carry. -/
theorem Ends.loosen (ends : Ends maxNesting c w ts) (looser : d.level ≤ c.level)
    (carries : Pending.Carries d w) : Ends maxNesting d w ts := by
  obtain ⟨us, x, below, -, fits, rfl⟩ := ends
  obtain ⟨y, tokens, -, nesting⟩ := x.exists_of_level_le d looser
  exact ⟨us, y, below, carries, by omega, by rw [tokens]⟩

/-- The latest entry above a phrase that is no group takes the phrase as its last operand. -/
theorem Ends.absorb {p : Pending} (ends : Ends maxNesting c (p :: w) ts)
    (loose : p.isGroup = false) :
    ∃ d, Ends maxNesting d w ts ∧ d.level = p.precedence ∧ d.level ≤ 4 := by
  obtain ⟨us, x, below, carries, fits, rfl⟩ := ends
  obtain ⟨notCall, binds⟩ := carries p rfl
  rw [Pending.groups_cons_of_not_group w loose] at fits
  cases below with
  | group below _ => cases loose
  | call f below _ => exact absurd rfl (notCall f)
  | minus below bare =>
      have tight : 4 ≤ c.level := by
        simp only [Pending.precedence] at binds
        omega
      obtain ⟨y, tokens, -, nesting⟩ := x.exists_of_level_le .unary tight
      refine ⟨.unary, ⟨_, .minus y, below, bare, ?_, ?_⟩, rfl, Nat.le_refl 4⟩
      · simp only [Phrase.nesting, nesting, fits]
      · simp only [Phrase.tokens, tokens, List.append_assoc, List.singleton_append]
  | negate below bare =>
      have tight : 4 ≤ c.level := by
        simp only [Pending.precedence] at binds
        omega
      obtain ⟨y, tokens, -, nesting⟩ := x.exists_of_level_le .unary tight
      refine ⟨.unary, ⟨_, .negate y, below, bare, ?_, ?_⟩, rfl, Nat.le_refl 4⟩
      · simp only [Phrase.nesting, nesting, fits]
      · simp only [Phrase.tokens, tokens, List.append_assoc, List.singleton_append]
  | operator o a below carriesA fitsA =>
      have low := o.precedence_le
      have tight : o.right.level ≤ c.level := by
        rw [o.level_right]
        simp only [Pending.precedence] at binds
        omega
      obtain ⟨y, tokens, -, nesting⟩ := x.exists_of_level_le o.right tight
      refine ⟨o.left, ⟨_, .binary o a y, below, carriesA, ?_, ?_⟩, o.level_left, ?_⟩
      · simp only [Phrase.nesting]
        omega
      · simp only [Phrase.tokens, tokens, List.append_assoc, List.singleton_append]
      · rw [o.level_left]
        omega

/-- **Unwinding.**  Entries that are no groups are released one after another into one phrase, which
binds at least as much as each of them did. -/
theorem Ends.unwind (ends : Ends maxNesting c (held ++ w) ts)
    (loose : ∀ p ∈ held, p.isGroup = false) :
    ∃ d, Ends maxNesting d w ts ∧
      ∀ n, n ≤ c.level → (∀ p ∈ held, n ≤ p.precedence) → n ≤ d.level := by
  induction held generalizing c with
  | nil => exact ⟨c, ends, fun _ low _ => low⟩
  | cons p held ih =>
      obtain ⟨e, absorbed, level, -⟩ := ends.absorb (loose p (List.mem_cons_self ..))
      obtain ⟨d, ends, above⟩ := ih absorbed fun q member => loose q (List.mem_cons_of_mem p member)
      refine ⟨d, ends, fun n _ low =>
        above n ?_ fun q member => low q (List.mem_cons_of_mem p member)⟩
      rw [level]
      exact low p (List.mem_cons_self ..)

/-! ## The invariant of a run -/

namespace Yard

/-- What the tokens read so far are: a derivation in progress where an operand is due, and a
suffixed phrase on top of one where an operand has just ended.  A function that waits on top is
about to get its parenthesis. -/
structure Explains (maxNesting : Nat) (y : Yard) (ts : List Token) (next : Option Token) :
    Prop where
  depth : y.depth = Pending.groups y.waiting
  due : y.afterValue = false → Partial maxNesting y.waiting ts ∧
    ∀ f, y.waiting.head? = some (.call f) → next = some .openGroup
  ended : y.afterValue = true → Ends maxNesting .suffixed y.waiting ts

variable {y z : Yard} {next : Option Token} {t : Token}

/-- Unless a parenthesis comes, no function waits on top. -/
theorem Explains.bare (explains : Explains maxNesting y ts (some t)) (due : y.afterValue = false)
    (other : t ≠ .openGroup) (f : Func) : y.waiting.head? ≠ some (.call f) :=
  fun call => other (Option.some.inj ((explains.due due).2 f call))

/-- An operand of one token. -/
theorem Explains.operand (explains : Explains maxNesting y ts (some t))
    (due : y.afterValue = false) (other : t ≠ .openGroup) (x : Phrase .primary)
    (flat : x.nesting = 0) (fits : y.depth ≤ maxNesting) :
    Ends maxNesting .suffixed y.waiting (ts ++ x.tokens) := by
  have depth := explains.depth
  refine ⟨ts, .ofPrimary x, (explains.due due).1,
    Pending.carries_of_bare (by decide) (explains.bare due other), ?_, rfl⟩
  simp only [Phrase.nesting, flat]
  omega

/-- Groups are opened one at a time, so those that wait never exceed the limit. -/
theorem groups_le_of_partial (reading : Partial maxNesting w ts) :
    Pending.groups w ≤ maxNesting := by
  induction reading with
  | start => exact Nat.zero_le _
  | group below fits ih => simpa using fits
  | call f below carries ih => simpa using ih
  | minus below carries ih => simpa using ih
  | negate below carries ih => simpa using ih
  | operator o x below carries fits ih => simpa using ih

/-- A group that closes is an operand, with the function that waits under it if there is one. -/
theorem Explains.closes (explains : Explains maxNesting y ts (some .closeGroup))
    (complete : y.afterValue = true) (closed : y.close = .ok z) :
    Explains maxNesting z (ts ++ [.closeGroup]) next := by
  obtain ⟨held, w, waits, loose⟩ := exists_of_close closed
  have depth := explains.depth
  have ends := explains.ended complete
  rw [waits, Pending.groups_append_of_not_group _ loose, Pending.groups_cons_group] at depth
  rw [waits] at ends
  obtain ⟨d, ends, -⟩ := ends.unwind loose
  obtain ⟨us, x, below, -, fits, rfl⟩ :=
    ends.loosen (d := .sum) d.level_pos (Pending.carries_group .sum w)
  rw [Pending.groups_cons_group] at fits
  cases below with
  | @group _ us below room =>
      cases w with
      | nil =>
          rw [close_group waits loose (by simp)] at closed
          obtain rfl := Except.ok.inj closed
          refine ⟨by simp only; omega, by simp, fun _ => ?_⟩
          refine ⟨us, .ofPrimary (.group x), below, Pending.carries_nil _, ?_, ?_⟩
          · simp only [Phrase.nesting]
            omega
          · simp [Phrase.tokens]
      | cons p w =>
          by_cases isCall : ∃ f, p = .call f
          · obtain ⟨f, rfl⟩ := isCall
            rw [close_call waits loose] at closed
            obtain rfl := Except.ok.inj closed
            rw [Pending.groups_cons_call] at fits depth
            cases below with
            | @call _ us _ below carries =>
                refine ⟨by simp only; omega, by simp, fun _ => ?_⟩
                refine ⟨us, .ofPrimary (.call f x), below,
                  Pending.carries_of_bare (by decide) carries.bare, ?_, ?_⟩
                · simp only [Phrase.nesting]
                  omega
                · simp [Phrase.tokens]
          · have bare : ∀ f, (p :: w).head? ≠ some (.call f) := fun f call =>
              isCall ⟨f, Option.some.inj call⟩
            rw [close_group waits loose bare] at closed
            obtain rfl := Except.ok.inj closed
            refine ⟨by simp only; omega, by simp, fun _ => ?_⟩
            refine ⟨us, .ofPrimary (.group x), below, Pending.carries_of_bare (by decide) bare,
              ?_, ?_⟩
            · simp only [Phrase.nesting]
              omega
            · simp [Phrase.tokens]

/-- An operator gets the left operand that binds at least as much as it does. -/
theorem Explains.operates (explains : Explains maxNesting y ts (some t))
    (complete : y.afterValue = true) (o : Operator) :
    Explains maxNesting ((y.release (Pending.yields o)).await (.operator o))
      (ts ++ [.operator o]) next := by
  have split := List.takeWhile_append_dropWhile (p := Pending.yields o) (l := y.waiting)
  have yields : ∀ p ∈ y.waiting.takeWhile (Pending.yields o), o.precedence ≤ p.precedence :=
    fun p member => (Pending.yields_iff o p).1 (List.all_eq_true.1 List.all_takeWhile p member)
  have loose : ∀ p ∈ y.waiting.takeWhile (Pending.yields o), p.isGroup = false :=
    fun p member => Pending.isGroup_eq_false_of_precedence
      (Nat.le_trans o.precedence_pos (yields p member))
  have stops := List.head?_dropWhile_not (Pending.yields o) y.waiting
  have depth := explains.depth
  have ends := explains.ended complete
  simp only [release, await]
  generalize y.waiting.takeWhile (Pending.yields o) = held at split yields loose
  generalize y.waiting.dropWhile (Pending.yields o) = w at split stops
  rw [← split, Pending.groups_append_of_not_group _ loose] at depth
  rw [← split] at ends
  obtain ⟨d, ends, above⟩ := ends.unwind loose
  have low := o.precedence_le
  have tight : o.left.level ≤ d.level := by
    rw [o.level_left]
    exact above _ (Nat.le_trans low (by decide)) yields
  have carries : Pending.Carries o.left w := by
    obtain ⟨us, x, -, carries, -⟩ := ends
    intro p top
    simp only [Option.mem_def.1 top] at stops
    refine ⟨(carries p top).1, .inl ?_⟩
    rw [o.level_left]
    have stuck : ¬ o.precedence ≤ p.precedence := fun binds => by
      simp [(Pending.yields_iff o p).2 binds] at stops
    omega
  obtain ⟨us, x, below, carries, fits, rfl⟩ := ends.loosen tight carries
  refine ⟨?_, fun _ => ⟨.operator o x below carries fits, by simp⟩, by simp⟩
  rw [Pending.groups_cons_operator, depth]

/-- **Every move keeps the invariant.** -/
theorem explains_of_moves (explains : Explains maxNesting y ts (some t))
    (moves : Moves maxNesting y next t z) : Explains maxNesting z (ts ++ [t]) next := by
  have depth := explains.depth
  cases moves with
  | number v due =>
      have fits := groups_le_of_partial (explains.due due).1
      exact ⟨depth, by simp [emit], fun _ =>
        explains.operand due (by simp) (.number v) rfl (depth ▸ fits)⟩
  | call f due opens =>
      have carries := Pending.carries_of_bare (c := .primary) (by decide)
        (explains.bare due (by simp))
      refine ⟨?_, fun _ => ⟨.call f (explains.due due).1 carries, fun _ _ => opens⟩,
        by simp [await]⟩
      simpa [await] using depth
  | openGroup due fits =>
      refine ⟨by simpa [await] using depth, fun _ => ⟨?_, by simp [await]⟩, by simp [await]⟩
      exact .group (explains.due due).1 (depth ▸ fits)
  | closeGroup z complete closed => exact explains.closes complete closed
  | factorial complete =>
      obtain ⟨us, x, below, carries, fits, rfl⟩ := explains.ended complete
      refine ⟨depth, by simp [emit], fun _ => ?_⟩
      exact ⟨us, .factorial x, below, carries, fits, by simp [Phrase.tokens]⟩
  | negate due =>
      have carries := Pending.carries_of_bare (c := .unary) (by decide)
        (explains.bare due (by simp))
      refine ⟨?_, fun _ => ⟨.negate (explains.due due).1 carries, by simp [await]⟩, by simp [await]⟩
      simpa [await] using depth
  | minus due =>
      have carries := Pending.carries_of_bare (c := .unary) (by decide)
        (explains.bare due (by simp))
      refine ⟨?_, fun _ => ⟨.minus (explains.due due).1 carries, by simp [await]⟩, by simp [await]⟩
      simpa [await] using depth
  | operator o complete => exact explains.operates complete o

theorem explains_start (next : Option Token) : Explains maxNesting {} [] next :=
  ⟨rfl, fun _ => ⟨.start, by simp⟩, by simp⟩

/-- **A run keeps the invariant.** -/
theorem explains_of_scan {following : Option Token}
    (run : scan maxNesting following {} ts = .ok y) : Explains maxNesting y ts following :=
  scan_induction (Explains maxNesting) (fun _ _ _ _ _ => explains_of_moves) (explains_start _) run

/-- At the end everything is released into one phrase. -/
theorem Explains.finished {listed : List Token} (explains : Explains maxNesting y ts none)
    (done : y.finish = .ok listed) : ∃ x : Phrase .sum, x.tokens = ts ∧ x.nesting ≤ maxNesting := by
  unfold finish at done
  split at done
  · cases done
  rename_i complete
  split at done
  · cases done
  rename_i noGroup
  have loose : ∀ p ∈ y.waiting, p.isGroup = false := by simpa using noGroup
  have ends := explains.ended (by simpa using complete)
  rw [← List.append_nil y.waiting] at ends
  obtain ⟨d, ends, -⟩ := ends.unwind loose
  obtain ⟨us, x, below, -, fits, rfl⟩ :=
    ends.loosen (d := .sum) d.level_pos (Pending.carries_nil .sum)
  cases below with
  | start => exact ⟨x, rfl, by simpa using fits⟩

/-- **A run to the end reads a phrase**, nested no deeper than the limit. -/
theorem exists_phrase_of_scan {listed : List Token} (run : scan maxNesting none {} ts = .ok y)
    (done : y.finish = .ok listed) : ∃ x : Phrase .sum, x.tokens = ts ∧ x.nesting ≤ maxNesting :=
  (explains_of_scan run).finished done

end Yard

theorem exists_scan_of_ofTokens {maxNesting : Nat} {ts listed : List Token}
    (read : ofTokens maxNesting ts = .ok listed) :
    ∃ y, Yard.scan maxNesting none {} ts = .ok y ∧ y.finish = .ok listed := by
  unfold ofTokens at read
  split at read
  · cases read
  cases run : Yard.scan maxNesting none {} ts with
  | error fault => simp [run, bind, Except.bind] at read
  | ok y => exact ⟨y, rfl, by simpa [run, bind, Except.bind] using read⟩

/-- **Only phrases are read.**  Tokens that have a postfix list are the yield of a derivation of the
grammar, nested no deeper than the limit. -/
theorem exists_phrase_of_ofTokens (maxNesting : Nat) (ts listed : List Token)
    (read : ofTokens maxNesting ts = .ok listed) :
    ∃ x : Phrase .sum, x.tokens = ts ∧ x.nesting ≤ maxNesting := by
  obtain ⟨y, run, done⟩ := exists_scan_of_ofTokens read
  exact Yard.exists_phrase_of_scan run done

/-- The tokens of `-sin(2!)!^3`. -/
theorem exists_phrase_of_ofTokens_call :
    let ts : List Token := [.operator .sub, .name Func.sin.name, .openGroup, .number 2, .factorial,
      .closeGroup, .factorial, .operator .pow, .number 3]
    ofTokens 1 ts = .ok [.number 2, .factorial, .name Func.sin.name, .factorial, .negate, .number 3,
        .operator .pow] ∧
      ∃ x : Phrase .sum, x.tokens = ts ∧ x.nesting ≤ 1 :=
  ⟨rfl, exists_phrase_of_ofTokens 1 _ _ rfl⟩

/-- **The postfix lists are those of the trees of phrases** nested no deeper than the limit. -/
theorem ofTokens_eq_ok_iff {maxNesting : Nat} {ts listed : List Token} :
    ofTokens maxNesting ts = .ok listed ↔
      ∃ x : Phrase .sum, x.tokens = ts ∧ x.nesting ≤ maxNesting ∧ x.tree.postorder = listed := by
  constructor
  · intro read
    obtain ⟨y, run, done⟩ := exists_scan_of_ofTokens read
    obtain ⟨x, rfl, fits⟩ := Yard.exists_phrase_of_scan run done
    exact ⟨x, rfl, fits, Except.ok.inj ((x.ofTokens_tokens fits).symm.trans read)⟩
  · rintro ⟨x, rfl, fits, rfl⟩
    exact x.ofTokens_tokens fits

end Postfix

end SciCalc
