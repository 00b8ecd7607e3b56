/-
# SciCalc.Proofs.Postfix.Postorder -- postfix lists and trees are one to one

Reading the postfix list of a tree puts that tree, with its height, on top of
whatever lies on the stack, or meets the limit on heights; which of the two is
decided by the height alone (`Stack.foldlM_postorder`).  A number is never
refused, so a limit of zero is one of one.

Conversely the trees on a stack list the tokens that were read, each tree lies
there with its own height, and one more token keeps it so (`Stack.step_spec`).
So no list but the postfix list of a tree is read as one
(`tree_eq_ok_iff_postorder`).
-/
import SciCalc.Postfix.Tree

namespace SciCalc

set_option autoImplicit false

namespace Postfix

namespace Stack

/-! ## A tree put on a stack -/

/-- The outcome of putting a tree of some height on a stack. -/
def place (maxHeight : Nat) (e : Expr) (st : Stack) : Except Fault Stack :=
  if e.height ≤ max maxHeight 1 then .ok ((e, e.height) :: st)
  else .error (.exceeded (.height maxHeight))

/-- A node over one operand is placed exactly when it is low enough; the operand then is. -/
theorem place_applyOne (maxHeight : Nat) (t : Token) (node : Expr → Expr) (x : Expr) (st : Stack)
    (taller : (node x).height = x.height + 1) :
    (place maxHeight x st >>= applyOne maxHeight t node) = place maxHeight (node x) st := by
  have positive := x.one_le_height
  unfold place
  by_cases low : x.height ≤ max maxHeight 1
  · by_cases fits : x.height + 1 ≤ maxHeight
    · have ok : ¬ maxHeight < x.height + 1 := by omega
      have ok' : x.height + 1 ≤ max maxHeight 1 := by omega
      simp [low, ok', applyOne, grow, ok, taller, bind, Except.bind, pure, Except.pure]
    · have high : maxHeight < x.height + 1 := by omega
      have high' : ¬ x.height + 1 ≤ max maxHeight 1 := by omega
      simp [low, high', applyOne, grow, high, taller, bind, Except.bind]
  · have high : ¬ x.height + 1 ≤ max maxHeight 1 := by omega
    simp [low, high, taller, bind, Except.bind]

/-- A node over two operands is placed exactly when it is low enough; both operands then are. -/
theorem place_applyTwo (maxHeight : Nat) (t : Token) (o : Operator) (a b : Expr) (st : Stack) :
    (place maxHeight a st >>= fun st =>
      place maxHeight b st >>= applyTwo maxHeight t (.binary o)) =
        place maxHeight (.binary o a b) st := by
  have positive := a.one_le_height
  unfold place
  simp only [Expr.height]
  by_cases lowA : a.height ≤ max maxHeight 1
  · by_cases lowB : b.height ≤ max maxHeight 1
    · by_cases fits : max a.height b.height + 1 ≤ maxHeight
      · have ok : ¬ maxHeight < max a.height b.height + 1 := by omega
        have ok' : max a.height b.height + 1 ≤ max maxHeight 1 := by omega
        simp only [lowA, lowB, ok', ok, if_true, if_false, applyTwo, grow, bind, Except.bind, pure,
          Except.pure]
      · have high : maxHeight < max a.height b.height + 1 := by omega
        have high' : ¬ max a.height b.height + 1 ≤ max maxHeight 1 := by omega
        simp only [lowA, lowB, high', high, if_true, if_false, applyTwo, grow, bind, Except.bind]
    · have high : ¬ max a.height b.height + 1 ≤ max maxHeight 1 := by omega
      simp only [lowA, lowB, high, if_true, if_false, bind, Except.bind]
  · have high : ¬ max a.height b.height + 1 ≤ max maxHeight 1 := by omega
    simp only [lowA, high, if_false, bind, Except.bind]

theorem foldlM_singleton (maxHeight : Nat) (t : Token) (st : Stack) :
    [t].foldlM (step maxHeight) st = step maxHeight st t := by
  cases h : step maxHeight st t <;> simp [List.foldlM, h, bind, Except.bind, pure, Except.pure]

/-- **The run over a postfix list of a tree.** -/
theorem foldlM_postorder (maxHeight : Nat) (e : Expr) (st : Stack) :
    e.postorder.foldlM (step maxHeight) st = place maxHeight e st := by
  induction e generalizing st with
  | number v =>
      rw [Expr.postorder, foldlM_singleton]
      exact (if_pos (Nat.le_max_right maxHeight 1)).symm
  | negate x ih =>
      rw [Expr.postorder, List.foldlM_append, ih, ← place_applyOne maxHeight .negate _ x st rfl]
      simp only [foldlM_singleton, step]
  | factorial x ih =>
      rw [Expr.postorder, List.foldlM_append, ih, ← place_applyOne maxHeight .factorial _ x st rfl]
      simp only [foldlM_singleton, step]
  | call f x ih =>
      rw [Expr.postorder, List.foldlM_append, ih,
        ← place_applyOne maxHeight (.name f.name) _ x st rfl]
      simp only [foldlM_singleton, step, Func.ofName?_name]
  | binary o a b iha ihb =>
      rw [Expr.postorder, List.foldlM_append, List.foldlM_append, iha,
        ← place_applyTwo maxHeight (.operator o) o a b st]
      simp only [ihb, foldlM_singleton, step, bind_assoc]

/-! ## The trees on a stack -/

/-- The postfix lists of the trees on a stack, the earliest first. -/
def listing (st : Stack) : List Token := st.reverse.flatMap fun entry => entry.1.postorder

/-- Every tree lies on the stack with its own height, one that the limit admits. -/
def Measured (maxHeight : Nat) (st : Stack) : Prop :=
  ∀ entry ∈ st, entry.2 = entry.1.height ∧ entry.2 ≤ max maxHeight 1

@[simp] theorem listing_nil : listing [] = [] := rfl

@[simp] theorem listing_cons (e : Expr) (h : Nat) (st : Stack) :
    listing ((e, h) :: st) = listing st ++ e.postorder := by
  simp [listing]

section Reading

variable {maxHeight : Nat} {st st' : Stack} {t : Token}

theorem measured_cons {e : Expr} {h : Nat} :
    Measured maxHeight ((e, h) :: st) ↔
      (h = e.height ∧ h ≤ max maxHeight 1) ∧ Measured maxHeight st := by
  simp [Measured]

theorem eq_of_grow {height h : Nat} (done : grow maxHeight height = .ok h) :
    h = height + 1 ∧ h ≤ maxHeight := by
  unfold grow at done
  split at done
  · cases done
  · cases done
    omega

/-- A node over the latest tree takes that tree's place in the list and in the measures. -/
theorem applyOne_spec {node : Expr → Expr} (taller : ∀ x, (node x).height = x.height + 1)
    (listed : ∀ x, (node x).postorder = x.postorder ++ [t]) (measured : Measured maxHeight st)
    (done : applyOne maxHeight t node st = .ok st') :
    Measured maxHeight st' ∧ st'.listing = st.listing ++ [t] := by
  cases st with
  | nil => cases done
  | cons top rest =>
      obtain ⟨x, h⟩ := top
      obtain ⟨⟨rfl, -⟩, below⟩ := measured_cons.1 measured
      cases grown : grow maxHeight x.height with
      | error fault =>
          simp only [applyOne, grown, bind, Except.bind] at done
          cases done
      | ok h' =>
          simp only [applyOne, grown, bind, Except.bind, pure, Except.pure, Except.ok.injEq] at done
          subst done
          obtain ⟨rfl, low⟩ := eq_of_grow grown
          refine ⟨measured_cons.2 ⟨⟨(taller x).symm, by omega⟩, below⟩, ?_⟩
          rw [listing_cons, listing_cons, listed, List.append_assoc]

/-- A node over the two latest trees takes their place. -/
theorem applyTwo_spec (o : Operator) (measured : Measured maxHeight st)
    (done : applyTwo maxHeight (.operator o) (.binary o) st = .ok st') :
    Measured maxHeight st' ∧ st'.listing = st.listing ++ [.operator o] := by
  match st with
  | [] => cases done
  | [_] => cases done
  | (b, hb) :: (a, ha) :: rest =>
      obtain ⟨⟨rfl, -⟩, belowB⟩ := measured_cons.1 measured
      obtain ⟨⟨rfl, -⟩, below⟩ := measured_cons.1 belowB
      cases grown : grow maxHeight (max a.height b.height) with
      | error fault =>
          simp only [applyTwo, grown, bind, Except.bind] at done
          cases done
      | ok h =>
          simp only [applyTwo, grown, bind, Except.bind, pure, Except.pure, Except.ok.injEq] at done
          subst done
          obtain ⟨rfl, low⟩ := eq_of_grow grown
          refine ⟨measured_cons.2 ⟨⟨rfl, by omega⟩, below⟩, ?_⟩
          simp [Expr.postorder]

/-- **One token** more is listed, and what lies on the stack stays measured. -/
theorem step_spec (measured : Measured maxHeight st) (done : step maxHeight st t = .ok st') :
    Measured maxHeight st' ∧ st'.listing = st.listing ++ [t] := by
  cases t with
  | number v =>
      cases done
      refine ⟨measured_cons.2 ⟨⟨rfl, Nat.le_max_right _ _⟩, measured⟩, ?_⟩
      rw [listing_cons, Expr.postorder]
  | operator o => exact applyTwo_spec o measured done
  | negate => exact applyOne_spec (fun _ => rfl) (fun _ => rfl) measured done
  | factorial => exact applyOne_spec (fun _ => rfl) (fun _ => rfl) measured done
  | name w =>
      cases known : Func.ofName? w with
      | none =>
          simp only [step, known] at done
          cases done
      | some f =>
          obtain rfl := (Func.ofName?_eq_some_iff w f).1 known
          simp only [step, known] at done
          exact applyOne_spec (fun _ => rfl) (fun _ => rfl) measured done
  | openGroup => cases done
  | closeGroup => cases done

/-- **A run** lists its tokens on top of what was listed. -/
theorem foldlM_spec {ts : List Token} (measured : Measured maxHeight st)
    (done : ts.foldlM (step maxHeight) st = .ok st') :
    Measured maxHeight st' ∧ st'.listing = st.listing ++ ts := by
  induction ts generalizing st with
  | nil =>
      cases done
      exact ⟨measured, (List.append_nil _).symm⟩
  | cons t ts ih =>
      rw [List.foldlM_cons] at done
      cases first : step maxHeight st t with
      | error fault =>
          rw [first] at done
          cases done
      | ok next =>
          rw [first] at done
          obtain ⟨stays, listed⟩ := step_spec measured first
          obtain ⟨ends, whole⟩ := ih stays done
          exact ⟨ends, by rw [whole, listed, List.append_assoc, List.singleton_append]⟩

end Reading

end Stack

/-! ## Whole lists -/

/-- **The tree of its own postfix list**: found if it is low enough, else refused. -/
theorem tree_postorder (maxHeight : Nat) (e : Expr) :
    tree maxHeight e.postorder =
      if e.height ≤ max maxHeight 1 then .ok e else .error (.exceeded (.height maxHeight)) := by
  unfold tree
  rw [Stack.foldlM_postorder, Stack.place]
  split <;> rfl

theorem tree_postorder_of_le {maxHeight : Nat} {e : Expr} (low : e.height ≤ maxHeight) :
    tree maxHeight e.postorder = .ok e := by
  rw [tree_postorder, if_pos (Nat.le_trans low (Nat.le_max_left _ _))]

theorem eq_of_tree_postorder {maxHeight : Nat} {e found : Expr}
    (read : tree maxHeight e.postorder = .ok found) : found = e := by
  rw [tree_postorder] at read
  split at read
  · exact (Except.ok.inj read).symm
  · cases read

/-- What is left of a list that is read is the tree with that postfix list. -/
theorem postorder_of_tree {maxHeight : Nat} {ts : List Token} {e : Expr}
    (read : tree maxHeight ts = .ok e) : ts = e.postorder ∧ e.height ≤ max maxHeight 1 := by
  unfold tree at read
  cases run : ts.foldlM (Stack.step maxHeight) [] with
  | error fault =>
      rw [run] at read
      cases read
  | ok st =>
      rw [run] at read
      obtain ⟨measured, listed⟩ := Stack.foldlM_spec (by simp [Stack.Measured]) run
      match st with
      | [] => cases read
      | [(x, h)] =>
          obtain rfl : x = e := Except.ok.inj read
          obtain ⟨⟨rfl, low⟩, -⟩ := Stack.measured_cons.1 measured
          refine ⟨?_, low⟩
          rw [Stack.listing_cons] at listed
          exact listed.symm
      | _ :: _ :: _ => cases read

/-- **Postfix lists and trees are one to one.**  A list is read as a tree if it is the postfix list
of the tree and the tree is low enough, a number being always so, and in no other case.  On the way,
what lies on the stack are the trees of the tokens read so far, each with its own height. -/
theorem tree_eq_ok_iff_postorder (maxHeight : Nat) (ts : List Token) :
    (∀ e, tree maxHeight ts = .ok e ↔ ts = e.postorder ∧ e.height ≤ max maxHeight 1) ∧
      ∀ st, ts.foldlM (Stack.step maxHeight) [] = .ok st →
        ts = st.listing ∧ ∀ entry ∈ st, entry.2 = entry.1.height := by
  refine ⟨fun e => ⟨postorder_of_tree, ?_⟩, fun st run => ?_⟩
  · rintro ⟨rfl, low⟩
    rw [tree_postorder, if_pos low]
  · obtain ⟨measured, listed⟩ := Stack.foldlM_spec (by simp [Stack.Measured]) run
    exact ⟨listed.symm, fun entry member => (measured entry member).1⟩

/-- The list `2 9 sqrt *` is that of a product with a root in it, of height three; before the sign
of the product the root lies on the stack with height two. -/
theorem tree_eq_ok_iff_postorder_product :
    let ts : List Token := [.number 2, .number 9, .name "sqrt"]
    let st : Stack := [(.call .sqrt (.number 9), 2), (.number 2, 1)]
    (ts.foldlM (Stack.step 3) [] = .ok st ∧ ∀ entry ∈ st, entry.2 = entry.1.height) ∧
      tree 3 (ts ++ [.operator .mul]) =
        .ok (.binary .mul (.number 2) (.call .sqrt (.number 9))) := by
  intro ts st
  have run : ts.foldlM (Stack.step 3) [] = .ok st := rfl
  obtain ⟨-, measures⟩ := tree_eq_ok_iff_postorder 3 ts
  obtain ⟨reads, -⟩ := tree_eq_ok_iff_postorder 3 (ts ++ [.operator .mul])
  exact ⟨⟨run, (measures st run).2⟩, (reads _).2 ⟨rfl, by decide⟩⟩

end Postfix

end SciCalc
