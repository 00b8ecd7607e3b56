/-
# SciCalc.Proofs.Postfix.Waiting -- the shape of what waits

Between any two tokens a yard is orderly (`Yard.Orderly`):

* an operand has just ended exactly when the last token ends one;
* the depth is the number of groups that wait, and is within the limit;
* a function waits right under a group, unless its name is the last token;
* between two groups negations wait on top, above operators that bind less and
  less.

What waits is a derivation in progress, and no rule of `Partial` lays an entry
on one that it cannot rest on (`Partial.isChain`), so the order is that of the
grammar.

Three things follow that the reader takes for granted (`Yard.scan_orderly`): a
group that closes has a depth to go down from, an operator never comes upon a
function while it releases what waits, and no parenthesis is listed.
-/
import Mathlib.Data.List.Chain
import SciCalc.Proofs.Postfix.Soundness

namespace SciCalc

set_option autoImplicit false

namespace Postfix

namespace Pending

/-- Whether it is a function. -/
def isCall : Pending → Bool
  | call _ => true
  | _ => false

/-- Whether `p` can wait right above `q`: a function carries nothing but its group, and an operator
rests on what binds less. -/
def RestsOn (p q : Pending) : Prop :=
  (q.isCall = true → p = .group) ∧ ∀ o, p = .operator o → q.precedence < o.precedence

/-- From the latest entry down: negations, then what binds less than a negation, each less than the
one above it. -/
def Ranked (w : List Pending) : Prop :=
  ∃ n held, w = List.replicate n .negate ++ held ∧ (∀ p ∈ held, p.precedence < precedence .negate) ∧
    held.Pairwise fun p q => q.precedence < p.precedence

variable {c : Category} {w : List Pending}

/-- An entry rests on what carries its phrase. -/
theorem Carries.restsOn (carries : Carries c w) {p : Pending}
    (level : ∀ o, p = .operator o → c.level = o.precedence) : ∀ q ∈ w.head?, RestsOn p q := by
  intro q top
  obtain ⟨notCall, binds⟩ := carries q top
  refine ⟨fun isCall => ?_, fun o same => ?_⟩
  · cases q with
    | call f => exact absurd rfl (notCall f)
    | _ => cases isCall
  · have low := o.precedence_le
    have := level o same
    omega

theorem group_restsOn (q : Pending) : RestsOn .group q :=
  ⟨fun _ => rfl, fun o same => by cases same⟩

/-- Down to its group, an operator binds more than everything below it. -/
theorem precedence_lt_of_isChain {o : Operator} (chain : (.operator o :: w).IsChain RestsOn)
    (loose : ∀ p ∈ w, p.isGroup = false) : ∀ q ∈ w, q.precedence < o.precedence := by
  induction w generalizing o with
  | nil => simp
  | cons p w ih =>
      obtain ⟨rests, chain⟩ := List.isChain_cons_cons.1 chain
      obtain ⟨isLoose, looseBelow⟩ := List.forall_mem_cons.1 loose
      have less : p.precedence < o.precedence := rests.2 o rfl
      have low := o.precedence_le
      cases p with
      | group => cases isLoose
      | call f => cases rests.1 rfl
      | negate =>
          simp only [precedence] at less
          omega
      | operator o' =>
          have below := ih chain looseBelow
          exact List.forall_mem_cons.2 ⟨less, fun q member => Nat.lt_trans (below q member) less⟩

theorem Ranked.negate (ranked : Ranked w) : Ranked (.negate :: w) := by
  obtain ⟨n, held, rfl, less, descends⟩ := ranked
  exact ⟨n + 1, held, rfl, less, descends⟩

/-- An operator above what binds less: no negation is among it. -/
theorem Ranked.operator {o : Operator} (ranked : Ranked w)
    (below : ∀ q ∈ w, q.precedence < o.precedence) : Ranked (.operator o :: w) := by
  have low := o.precedence_le
  obtain ⟨n, held, rfl, less, descends⟩ := ranked
  cases n with
  | zero =>
      rw [List.replicate_zero, List.nil_append] at below ⊢
      exact ⟨0, .operator o :: held, rfl, List.forall_mem_cons.2 ⟨Nat.lt_succ_of_le low, less⟩,
        List.pairwise_cons.2 ⟨below, descends⟩⟩
  | succ n =>
      have binds : precedence .negate < o.precedence := below _ (by simp [List.replicate_succ])
      simp only [precedence] at binds
      omega

/-- **Between two groups** the entries other than functions are ranked. -/
theorem ranked_of_isChain (chain : w.IsChain RestsOn) (loose : ∀ p ∈ w, p.isGroup = false) :
    Ranked (w.filter fun p => !p.isCall) := by
  induction w with
  | nil => exact ⟨0, [], rfl, by simp, .nil⟩
  | cons p w ih =>
      obtain ⟨isLoose, looseBelow⟩ := List.forall_mem_cons.1 loose
      have ranked := ih chain.tail looseBelow
      cases p with
      | group => cases isLoose
      | call f => exact ranked
      | negate => exact ranked.negate
      | operator o =>
          have below := precedence_lt_of_isChain chain looseBelow
          exact ranked.operator fun q member => below q (List.mem_of_mem_filter member)

end Pending

/-- No token of a list is a parenthesis. -/
def WithoutParens (ts : List Token) : Prop := ∀ t ∈ ts, t ≠ .openGroup ∧ t ≠ .closeGroup

open Pending (groups RestsOn Ranked)

variable {maxNesting : Nat} {w : List Pending} {ts : List Token}

/-- **Every rule lays its entry on one that it can rest on.** -/
theorem Partial.isChain (reading : Partial maxNesting w ts) : w.IsChain RestsOn := by
  induction reading with
  | start => exact .nil
  | group below fits ih =>
      exact List.isChain_cons.2 ⟨fun q _ => Pending.group_restsOn q, ih⟩
  | call f below carries ih =>
      exact List.isChain_cons.2 ⟨carries.restsOn (by simp), ih⟩
  | minus below carries ih =>
      exact List.isChain_cons.2 ⟨carries.restsOn (by simp), ih⟩
  | negate below carries ih =>
      exact List.isChain_cons.2 ⟨carries.restsOn (by simp), ih⟩
  | operator o x below carries fits ih =>
      refine List.isChain_cons.2 ⟨carries.restsOn fun o' same => ?_, ih⟩
      cases same
      exact o.level_left

namespace Yard

variable {y z : Yard} {t : Token} {next : Option Token}

/-! ## The order of what waits -/

/-- What holds of a yard after the tokens `ts`. -/
structure Orderly (maxNesting : Nat) (y : Yard) (ts : List Token) : Prop where
  /-- An operand has just ended exactly when the last token ends one. -/
  afterValue : y.afterValue = true ↔ ∃ t ∈ ts.getLast?, t.closesValue = true
  /-- The depth counts the groups that wait. -/
  depth : y.depth = groups y.waiting
  /-- No more groups are open than the limit allows. -/
  fits : y.depth ≤ maxNesting
  /-- A function waits right under a group, unless its name has just been read. -/
  calls : ∀ above f below, y.waiting = above ++ .call f :: below →
    above.getLast? = some .group ∨ above = [] ∧ ts.getLast? = some (.name f.name)
  /-- Between two groups, functions aside, negations wait above operators that bind less and
  less. -/
  ranked : ∀ held, held <:+: y.waiting → (∀ p ∈ held, p.isGroup = false) →
    Ranked (held.filter fun p => !p.isCall)

/-- After a run, the last token tells whether an operand has ended. -/
theorem afterValue_of_scan {following : Option Token}
    (run : scan maxNesting following {} ts = .ok y) :
    y.afterValue = true ↔ ∃ t ∈ ts.getLast?, t.closesValue = true := by
  have start : ({} : Yard).afterValue = true ↔
      ∃ t ∈ ([] : List Token).getLast?, t.closesValue = true := by simp
  refine scan_induction
    (fun y ts _ => y.afterValue = true ↔ ∃ t ∈ ts.getLast?, t.closesValue = true)
    (fun y ts t next z _ moves => ?_) start run
  rw [moves.afterValue]
  simp

/-- What waits is a derivation in progress, whether an operand has just ended or not. -/
theorem Explains.exists_partial (explains : Explains maxNesting y ts next) :
    ∃ us, Partial maxNesting y.waiting us := by
  cases after : y.afterValue with
  | false => exact ⟨ts, (explains.due after).1⟩
  | true =>
      obtain ⟨us, x, reading, -⟩ := explains.ended after
      exact ⟨us, reading⟩

/-- A function waits on top only right after its name. -/
theorem Explains.getLast?_of_call (explains : Explains maxNesting y ts next) {f : Func}
    (waits : y.waiting = .call f :: w) : ts.getLast? = some (.name f.name) := by
  cases after : y.afterValue with
  | false =>
      have reading := (explains.due after).1
      rw [waits] at reading
      cases reading with
      | call f below carries => exact List.getLast?_concat
  | true =>
      obtain ⟨us, x, reading, carries, -⟩ := explains.ended after
      rw [waits] at carries
      exact absurd rfl (carries.bare f)

theorem Explains.orderly (explains : Explains maxNesting y ts next)
    (ended : y.afterValue = true ↔ ∃ t ∈ ts.getLast?, t.closesValue = true) :
    Orderly maxNesting y ts := by
  obtain ⟨us, reading⟩ := explains.exists_partial
  have chain := reading.isChain
  refine ⟨ended, explains.depth, explains.depth ▸ groups_le_of_partial reading, ?_, ?_⟩
  · intro above f below waits
    rcases List.eq_nil_or_concat above with rfl | ⟨above, p, rfl⟩
    · exact .inr ⟨rfl, explains.getLast?_of_call waits⟩
    · -- The entry right above a function rests on it, so it is the function's group.
      rw [List.concat_eq_append, List.append_assoc, List.singleton_append] at waits
      rw [waits] at chain
      obtain ⟨-, rests, -⟩ := List.isChain_append_cons_cons.1 chain
      obtain rfl : p = .group := rests.1 rfl
      exact .inl (by rw [List.concat_eq_append, List.getLast?_concat])
  · intro held stretch loose
    have chainHeld := chain.infix stretch
    exact Pending.ranked_of_isChain chainHeld loose

/-! ## What follows from it -/

theorem depth_releaseCall (y : Yard) : y.releaseCall.depth = y.depth := by
  unfold releaseCall
  split <;> rfl

theorem depth_of_close (closed : y.close = .ok z) : z.depth = y.depth - 1 := by
  obtain ⟨below, rfl⟩ := eq_of_close closed
  exact depth_releaseCall _

/-- Where a group closes there is a depth to go down from. -/
theorem Orderly.depth_succ_of_close (orderly : Orderly maxNesting y ts) (closed : y.close = .ok z) :
    z.depth + 1 = y.depth := by
  obtain ⟨held, below, waits, loose⟩ := exists_of_close closed
  have counted := orderly.depth
  rw [waits, Pending.groups_append_of_not_group _ loose, Pending.groups_cons_group] at counted
  have lowered := depth_of_close closed
  omega

/-- Among the entries that an operator looks at there is no function. -/
theorem Orderly.ne_call (orderly : Orderly maxNesting y ts) (complete : y.afterValue = true)
    {o : Operator} {held below : List Pending} {p : Pending}
    (waits : y.waiting = held ++ p :: below) (released : ∀ q ∈ held, q.yields o = true)
    (f : Func) : p ≠ .call f := by
  rintro rfl
  rcases orderly.calls held f below waits with under | ⟨-, last⟩
  · have := released .group (List.mem_of_getLast? under)
    cases this
  · obtain ⟨t, isLast, closes⟩ := orderly.afterValue.1 complete
    rw [last] at isLast
    cases isLast
    cases closes

/-! ## The list -/

theorem withoutParens_release {ready : Pending → Bool} (listed : WithoutParens y.emitted)
    (loose : ∀ p ∈ y.waiting, ready p = true → p.isGroup = false) :
    WithoutParens (y.release ready).emitted := by
  intro t member
  rcases List.mem_append.1 member with released | before
  · obtain ⟨p, held, rfl⟩ := List.mem_map.1 (List.mem_reverse.1 released)
    have noGroup := loose p ((List.takeWhile_sublist ready).subset held)
      (List.all_eq_true.1 List.all_takeWhile p held)
    cases p with
    | group => cases noGroup
    | _ => simp [Pending.token]
  · exact listed t before

theorem withoutParens_releaseCall (listed : WithoutParens y.emitted) :
    WithoutParens y.releaseCall.emitted := by
  unfold releaseCall
  split
  · exact List.forall_mem_cons.2 ⟨by simp, listed⟩
  · exact listed

theorem withoutParens_close (listed : WithoutParens y.emitted) (closed : y.close = .ok z) :
    WithoutParens z.emitted := by
  have released : WithoutParens (y.release fun p => !p.isGroup).emitted :=
    withoutParens_release listed fun p _ ready => by simpa using ready
  obtain ⟨below, rfl⟩ := eq_of_close closed
  exact withoutParens_releaseCall released

/-- **No move lists a parenthesis.** -/
theorem Moves.withoutParens (moves : Moves maxNesting y next t z)
    (listed : WithoutParens y.emitted) : WithoutParens z.emitted := by
  cases moves with
  | number v due => exact List.forall_mem_cons.2 ⟨by simp, listed⟩
  | factorial complete => exact List.forall_mem_cons.2 ⟨by simp, listed⟩
  | closeGroup z complete closed => exact withoutParens_close listed closed
  | operator o complete =>
      refine withoutParens_release listed fun p _ yields => ?_
      exact Pending.isGroup_eq_false_of_precedence
        (Nat.le_trans o.precedence_pos ((Pending.yields_iff o p).1 yields))
  | _ => exact listed

/-- **No run lists a parenthesis.** -/
theorem withoutParens_scan {following : Option Token} (listed : WithoutParens y.emitted)
    (run : scan maxNesting following y ts = .ok z) : WithoutParens z.emitted := by
  induction ts generalizing y with
  | nil =>
      obtain rfl := Except.ok.inj run
      exact listed
  | cons t rest ih =>
      obtain ⟨x, moves, run⟩ := scan_cons_ok.1 run
      exact ih (moves.withoutParens listed) run

theorem withoutParens_finish {listed : List Token} (before : WithoutParens y.emitted)
    (done : y.finish = .ok listed) : WithoutParens listed := by
  unfold finish at done
  split at done
  · cases done
  · split at done
    · cases done
    · rename_i noGroup
      obtain rfl := Except.ok.inj done
      have loose : ∀ p ∈ y.waiting, p.isGroup = false := by simpa using noGroup
      intro t member
      exact withoutParens_release before (fun p waits _ => loose p waits) t
        (List.mem_reverse.1 member)

/-! ## Any run -/

/-- **Between any two tokens a yard is orderly**, whatever token follows.  So a group that closes
has a depth to go down from, an operator comes upon no function while it releases what waits, and no
parenthesis is listed, neither so far nor at the end. -/
theorem scan_orderly (maxNesting : Nat) (following : Option Token) (ts : List Token) (y : Yard)
    (run : scan maxNesting following {} ts = .ok y) :
    y.Orderly maxNesting ts ∧
      (∀ z, y.close = .ok z → z.depth + 1 = y.depth) ∧
      (y.afterValue = true → ∀ (o : Operator) (held below : List Pending) (p : Pending),
        y.waiting = held ++ p :: below → (∀ q ∈ held, q.yields o = true) → ∀ f, p ≠ .call f) ∧
      WithoutParens y.emitted ∧
      ∀ listed, y.finish = .ok listed → WithoutParens listed := by
  have orderly := (explains_of_scan run).orderly (afterValue_of_scan run)
  have start : WithoutParens ({} : Yard).emitted := by simp [WithoutParens]
  have listed := withoutParens_scan start run
  refine ⟨orderly, fun z closed => orderly.depth_succ_of_close closed, ?_, listed,
    fun _ done => withoutParens_finish listed done⟩
  intro complete o held below p waits released
  exact orderly.ne_call complete waits released

/-- Inside the call in `2+3^--sin(1-4*5`. -/
theorem scan_orderly_in_call :
    let ts : List Token := [.number 2, .operator .add, .number 3, .operator .pow, .operator .sub,
      .operator .sub, .name Func.sin.name, .openGroup, .number 1, .operator .sub, .number 4,
      .operator .mul, .number 5]
    let y : Yard := ⟨[.number 5, .number 4, .number 1, .number 3, .number 2],
      [.operator .mul, .operator .sub, .group, .call .sin, .negate, .negate, .operator .pow,
        .operator .add], true, 1⟩
    scan 1 none {} ts = .ok y ∧ y.Orderly 1 ts ∧ (∃ z, y.close = .ok z ∧ z.depth + 1 = y.depth) ∧
      WithoutParens y.emitted := by
  intro ts y
  have run : scan 1 none {} ts = .ok y := rfl
  obtain ⟨orderly, lowers, -, listed, -⟩ := scan_orderly 1 none ts y run
  exact ⟨run, orderly, ⟨_, rfl, lowers _ rfl⟩, listed⟩

end Yard

end Postfix

end SciCalc
