/-
# SciCalc.Proofs.Session.History -- what is shown comes from one past evaluation

From the beginning, through any actions, a session keeps these:

* **bounds**: the places and the limits never leave their ranges, whatever
  numbers they are set to (`bounded_run`);
* **consistency**: a class of faults comes with an error, and a record comes
  with no error (`consistent_run`);
* **origin**: a result comes from the last evaluation that succeeded since what
  is shown was last emptied.  It is the value of the entry of that moment under
  the settings of that moment, written with the places of that moment, and the
  record is that evaluation's own or none (`Explained`).

The first two hold of a single state, so one action keeps them.  The third looks
back over the actions: `Quiet` actions replace no result, and one more action
goes on with them, or begins anew, or leaves nothing to explain
(`Explained.step`).
-/
import Mathlib.Data.List.Induction
import SciCalc.Proofs.Session.Steps

namespace SciCalc

set_option autoImplicit false

namespace Session

variable (lib : Elementary)

/-- What the first state has and every action keeps is had by every state that is reached. -/
theorem run_invariant (holds : State → Prop) {s : State} (start : holds s)
    (step : ∀ s a, holds s → holds (act lib s a)) (actions : List Action) :
    holds (run lib s actions) := by
  induction actions generalizing s with
  | nil => exact start
  | cons a actions ih => exact ih (step s a start)

/-! ## Bounds -/

/-- The places and the limits are in their ranges. -/
structure Bounded (i : Inputs) : Prop where
  digits : i.digits ≤ 17
  maxTokens : 1 ≤ i.settings.maxTokens ∧ i.settings.maxTokens ≤ 65536
  maxNesting : 1 ≤ i.settings.maxNesting ∧ i.settings.maxNesting ≤ 512
  maxHeight : 1 ≤ i.settings.maxHeight ∧ i.settings.maxHeight ≤ 1024

theorem bounded_start : Bounded {} where
  digits := by decide
  maxTokens := by decide
  maxNesting := by decide
  maxHeight := by decide

theorem mem_clamp (ceiling n : Nat) (h : 1 ≤ ceiling) :
    1 ≤ Settings.clamp ceiling n ∧ Settings.clamp ceiling n ≤ ceiling :=
  ⟨Settings.one_le_clamp ceiling n, Settings.clamp_le ceiling n h⟩

/-- A number is brought into its range before it is stored. -/
theorem Bounded.step {s : State} (bounded : Bounded s.inputs) (a : Action) :
    Bounded (act lib s a).inputs := by
  cases evaluates : a.evaluates with
  | true =>
      rw [act_of_evaluates lib s a evaluates, inputs_equals]
      exact bounded
  | false =>
      obtain ⟨digits, maxTokens, maxNesting, maxHeight⟩ := bounded
      cases a with
      | equals => cases evaluates
      | enter received =>
          obtain rfl : received = false := evaluates
          exact ⟨digits, maxTokens, maxNesting, maxHeight⟩
      | reset => exact bounded_start
      | chooseMode mode =>
          simp only [act]
          split <;> exact ⟨digits, maxTokens, maxNesting, maxHeight⟩
      | setDigits n => exact ⟨Nat.min_le_right n 17, maxTokens, maxNesting, maxHeight⟩
      | setMaxTokens n => exact ⟨digits, mem_clamp _ n (by decide), maxNesting, maxHeight⟩
      | setMaxNesting n => exact ⟨digits, maxTokens, mem_clamp _ n (by decide), maxHeight⟩
      | setMaxHeight n => exact ⟨digits, maxTokens, maxNesting, mem_clamp _ n (by decide)⟩
      | _ => exact ⟨digits, maxTokens, maxNesting, maxHeight⟩

theorem bounded_run (actions : List Action) : Bounded (run lib {} actions).inputs :=
  run_invariant lib (fun s => Bounded s.inputs) (s := {}) bounded_start
    (fun _ a bounded => bounded.step lib a) actions

/-! ## Consistency -/

/-- The parts that are shown fit together. -/
structure Consistent (d : Shown) : Prop where
  /-- Without an error there is no class of faults. -/
  kind : d.error = [] → d.errorKind = none
  /-- A record is not shown next to an error. -/
  working : d.working ≠ {} → d.error = []

/-- An error is shown with a message and without a record, everything else without an error. -/
theorem Consistent.step {s : State} {a : Action} {d : Shown} (consistent : Consistent s.shown)
    (shows : Shows lib s a d) : Consistent d := by
  cases shows with
  | kept => exact consistent
  | emptied => exact ⟨fun _ => rfl, fun _ => rfl⟩
  | succeeded => exact ⟨fun _ => rfl, fun _ => rfl⟩
  | failed _ _ worded =>
      constructor
      · intro silent
        exact absurd silent worded
      · intro recorded
        exact absurd rfl recorded

theorem consistent_run (actions : List Action) : Consistent (run lib {} actions).shown :=
  run_invariant lib (fun s => Consistent s.shown) ⟨fun _ => rfl, fun _ => rfl⟩
    (fun s a consistent => consistent.step lib (act_shows lib s a)) actions

/-! ## Origin -/

/-- The action evaluates the entry, with this value and this record. -/
def Succeeds (s : State) (a : Action) (v : Float) (w : Working) : Prop :=
  a.evaluates = true ∧ s.settings.evaluate lib s.entry = .ok (v, w)

/-- Nothing in these actions empties what is shown, and no evaluation succeeds. -/
def Quiet : State → List Action → Prop
  | _, [] => True
  | s, a :: actions =>
    a.clears = false ∧ (∀ v w, ¬ Succeeds lib s a v w) ∧ Quiet (act lib s a) actions

theorem quiet_concat (s : State) (actions : List Action) (a : Action) :
    Quiet lib s (actions ++ [a]) ↔
      Quiet lib s actions ∧ a.clears = false ∧
        ∀ v w, ¬ Succeeds lib (run lib s actions) a v w := by
  induction actions generalizing s with
  | nil => simp [Quiet]
  | cons b actions ih => simp [Quiet, ih, and_assoc]

/-- What is shown is the outcome of one of the actions, an evaluation that succeeded, and the
actions after it were quiet: the result is its value, written with the places of then, and the
record is its own, unless a failure has dropped it. -/
def Explained (actions : List Action) (d : Shown) : Prop :=
  ∃ before a after v w, actions = before ++ a :: after ∧
    Succeeds lib (run lib {} before) a v w ∧
    Quiet lib (run lib {} (before ++ [a])) after ∧
    d.result = Display.result (run lib {} before).digits v ∧ (d.working = w ∨ d.working = {})

variable {lib}

/-- A quiet action goes on with the explanation, if the result stays and the record stays or
goes. -/
theorem Explained.concat {actions : List Action} {d d' : Shown} {a : Action}
    (explained : Explained lib actions d) (clears : a.clears = false)
    (unsuccessful : ∀ v w, ¬ Succeeds lib (run lib {} actions) a v w)
    (result : d'.result = d.result) (working : d'.working = d.working ∨ d'.working = {}) :
    Explained lib (actions ++ [a]) d' := by
  obtain ⟨before, b, after, v, w, rfl, succeeds, quiet, value, record⟩ := explained
  have split : before ++ b :: after = (before ++ [b]) ++ after := by simp
  refine ⟨before, b, after ++ [a], v, w, by simp, succeeds, ?_, result.trans value, ?_⟩
  · rw [quiet_concat, ← run_append, ← split]
    exact ⟨quiet, clears, unsuccessful⟩
  · rcases working with same | gone
    · rwa [same]
    · exact .inr gone

/-- One more action: the explanation goes on, or begins anew, or there is nothing to explain. -/
theorem Explained.step {actions : List Action} {a : Action} {d : Shown}
    (explained : (run lib {} actions).result ≠ [] →
      Explained lib actions (run lib {} actions).shown)
    (shows : Shows lib (run lib {} actions) a d) (shown : d.result ≠ []) :
    Explained lib (actions ++ [a]) d := by
  cases shows with
  | kept evaluates clears =>
      refine (explained shown).concat clears ?_ rfl (.inl rfl)
      rintro v w ⟨evaluating, -⟩
      rw [evaluates] at evaluating
      cases evaluating
  | emptied => exact absurd rfl shown
  | succeeded evaluates done =>
      exact ⟨actions, a, [], _, _, rfl, ⟨evaluates, done⟩, trivial, rfl, .inl rfl⟩
  | failed evaluates failed =>
      refine (explained shown).concat ?_ ?_ rfl (.inr rfl)
      · cases a with
        | clearResults => cases evaluates
        | reset => cases evaluates
        | _ => rfl
      · rintro v w ⟨-, done⟩
        rw [failed] at done
        cases done

theorem explained_run (actions : List Action) (shown : (run lib {} actions).result ≠ []) :
    Explained lib actions (run lib {} actions).shown := by
  induction actions using List.reverseRecOn with
  | nil => exact absurd rfl shown
  | append_singleton actions a ih =>
      rw [run_concat] at shown ⊢
      exact Explained.step ih (act_shows lib _ a) shown

variable (lib)

/-- **What is shown is explained by one past evaluation.**  In every state that actions lead to
from the beginning, the places and the limits are in their ranges, a class of faults comes with an
error and a record without one, and a result is the outcome of the last evaluation that succeeded
since what is shown was last emptied. -/
theorem run_explained (actions : List Action) :
    Bounded (run lib {} actions).inputs ∧ Consistent (run lib {} actions).shown ∧
      ((run lib {} actions).result ≠ [] →
        Explained lib actions (run lib {} actions).shown) :=
  ⟨bounded_run lib actions, consistent_run lib actions, explained_run actions⟩

/-- A third, shown with three places, stays on the display while the places change and a division by
zero fails. -/
theorem run_explained_third :
    let actions : List Action :=
      [.type "1/3", .setDigits 3, .equals, .setDigits 5, .type "1/0", .equals]
    (run .machine {} actions).result = "0.333".toList ∧
      (run .machine {} actions).errorKind = some .divisionByZero ∧
      Explained .machine actions (run .machine {} actions).shown := by
  intro actions
  have result : (run .machine {} actions).result = "0.333".toList := by decide +kernel
  have kind : (run .machine {} actions).errorKind = some .divisionByZero := by decide +kernel
  obtain ⟨-, -, explained⟩ := run_explained .machine actions
  refine ⟨result, kind, explained ?_⟩
  rw [result]
  decide

end Session

end SciCalc
