/-
# SciCalc.Proofs.Session.Steps -- what one action does to a session

A session is seen in two halves.  `Inputs` is what evaluations read: the entry,
the places, the settings and the panel.  `Shown` is what an evaluation of the
entry leaves to be seen: the result, the error with its class, the record.  The
request for the focus is in neither.

* the inputs after an action depend on the inputs before it, and an evaluation
  changes none of them (`inputs_act_congr`, `inputs_equals`);
* what is shown is kept by an action, or emptied, or written by an evaluation
  that succeeded or failed, and `Shows` has one case for each (`act_shows`).  A
  failure shows a message that is never empty.

The white space around an entry is nothing to its value
(`Settings.evaluate_trim`), so a session evaluates what it holds.
-/
import SciCalc.Proofs.Piece.Writing
import SciCalc.Session

namespace SciCalc

set_option autoImplicit false

/-! ## The entry that is evaluated -/

theorem normalize_congr {t u : Text} (same : t.withoutBlanks = u.withoutBlanks) :
    normalize t = normalize u := by
  rw [normalize, Piece.cut_congr same, normalize]

namespace Settings

variable (lib : Elementary) (s : Settings)

/-- White space makes no difference to an evaluation. -/
theorem evaluate_congr {t u : Text} (same : t.withoutBlanks = u.withoutBlanks) :
    s.evaluate lib t = s.evaluate lib u := by
  simp only [evaluate, read, normalize_congr same]

theorem evaluate_trim (t : Text) : s.evaluate lib t.trim = s.evaluate lib t :=
  s.evaluate_congr lib t.withoutBlanks_trim

/-- An entry of white space alone is the empty expression. -/
theorem evaluate_of_trim_eq_nil {t : Text} (blank : t.trim = []) :
    s.evaluate lib t = .error (.malformed .emptyExpression) := by
  rw [← evaluate_trim, blank]
  rfl

end Settings

theorem Text.literal_append_ne_nil {s : String} (some : s ≠ "") (t : Text) :
    s.toList ++ t ≠ [] := by
  simp [some]

theorem Fault.message_ne_nil (fault : Fault) : fault.message ≠ [] := by
  cases fault with
  | divisionByZero => decide
  | within function fault =>
      show "erreur dans ".toList ++ function ++ " : ".toList ++ fault.message ≠ []
      simp
  | _ => exact Text.literal_append_ne_nil (by decide) _

namespace Session

/-! ## The two halves of a session -/

/-- What evaluations read. -/
structure Inputs where
  entry : Text := []
  digits : Nat := digitsDefault
  settings : Settings := {}
  panel : Panel := {}
  deriving DecidableEq

/-- What an evaluation of the entry leaves to be seen. -/
structure Shown where
  result : Text := []
  error : Text := []
  errorKind : Option Kind := none
  working : Working := {}
  deriving DecidableEq

namespace State

def inputs (s : State) : Inputs where
  entry := s.entry
  digits := s.digits
  settings := s.settings
  panel := s.panel

def shown (s : State) : Shown where
  result := s.result
  error := s.error
  errorKind := s.errorKind
  working := s.working

end State

/-- Whether an action evaluates the entry. -/
def Action.evaluates : Action → Bool
  | .equals => true
  | .enter received => received
  | _ => false

/-- Whether an action empties what is shown. -/
def Action.clears : Action → Bool
  | .clearResults => true
  | .reset => true
  | _ => false

section Steps

variable (lib : Elementary) (s : State) (a : Action)

/-- The last of several actions acts on what the others leave. -/
theorem run_concat (actions : List Action) :
    run lib s (actions ++ [a]) = act lib (run lib s actions) a := by
  rw [run_append]
  rfl

theorem act_of_evaluates (evaluates : a.evaluates = true) : act lib s a = s.equals lib := by
  cases a with
  | equals => rfl
  | enter received =>
      obtain rfl : received = true := evaluates
      rfl
  | _ => cases evaluates

/-! ## The inputs -/

theorem inputs_equals : (s.equals lib).inputs = s.inputs := by
  simp only [State.equals]
  split
  · rfl
  · split <;> rfl

/-- **The inputs after an action** depend on the inputs before it, not on what is shown. -/
theorem inputs_act_congr {s t : State} (same : s.inputs = t.inputs) :
    (act lib s a).inputs = (act lib t a).inputs := by
  cases evaluates : a.evaluates with
  | true =>
      rw [act_of_evaluates lib s a evaluates, act_of_evaluates lib t a evaluates, inputs_equals,
        inputs_equals, same]
  | false =>
      simp only [State.inputs, Inputs.mk.injEq] at same
      obtain ⟨entry, digits, settings, panel⟩ := same
      cases a with
      | equals => cases evaluates
      | enter received =>
          obtain rfl : received = false := evaluates
          simp [act, State.inputs, *]
      | chooseMode mode =>
          simp only [act, settings]
          split <;> simp [State.inputs, State.setMode, *]
      | _ =>
          simp [act, State.inputs, State.clearEntry, State.clearResults, State.press, State.delete,
            State.setDigits, State.setMaxTokens, State.setMaxNesting, State.setMaxHeight,
            State.applyOperator, State.applyFunction, State.convert, State.showDirect, *]

/-! ## What is shown -/

theorem shown_of_clears (clears : a.clears = true) : (act lib s a).shown = {} := by
  cases a with
  | clearResults => rfl
  | reset => rfl
  | _ => cases clears

/-- Neither the keys, nor the settings, nor the panel touch what is shown. -/
theorem shown_of_idle (evaluates : a.evaluates = false) (clears : a.clears = false) :
    (act lib s a).shown = s.shown := by
  cases a with
  | equals => cases evaluates
  | enter received =>
      obtain rfl : received = false := evaluates
      rfl
  | clearResults => cases clears
  | reset => cases clears
  | chooseMode mode =>
      simp only [act]
      split <;> rfl
  | _ => rfl

theorem shown_equals_of_ok {v : Float} {w : Working}
    (done : s.settings.evaluate lib s.entry = .ok (v, w)) :
    (s.equals lib).shown = { result := Display.result s.digits v, working := w } := by
  have visible : s.entry.trim.isEmpty = false := by
    rw [List.isEmpty_eq_false_iff]
    intro blank
    rw [Settings.evaluate_of_trim_eq_nil lib s.settings blank] at done
    cases done
  simp [State.equals, visible, Settings.evaluate_trim, done, State.showResult, State.shown]

/-- An entry with something in it fails with the fault of its evaluation. -/
theorem shown_equals_of_visible_error {fault : Fault} (visible : s.entry.trim ≠ [])
    (failed : s.settings.evaluate lib s.entry = .error fault) :
    (s.equals lib).shown =
      { result := s.result, error := fault.message, errorKind := some fault.kind } := by
  simp [State.equals, visible, Settings.evaluate_trim, failed, State.showError, State.shown]

/-- A failure keeps the result, shows a message and leaves no record. -/
theorem shown_equals_of_error {fault : Fault}
    (failed : s.settings.evaluate lib s.entry = .error fault) :
    ∃ message kind, message ≠ [] ∧
      (s.equals lib).shown = { result := s.result, error := message, errorKind := kind } := by
  by_cases blank : s.entry.trim = []
  · refine ⟨"Entrée vide", none, by decide, ?_⟩
    simp [State.equals, blank, State.showError, State.shown]
  · exact ⟨fault.message, some fault.kind, fault.message_ne_nil,
      shown_equals_of_visible_error lib s blank failed⟩

/-- What an action can leave to be seen. -/
inductive Shows : Shown → Prop where
  | kept (evaluates : a.evaluates = false) (clears : a.clears = false) : Shows s.shown
  | emptied (clears : a.clears = true) : Shows {}
  | succeeded {v : Float} {w : Working} (evaluates : a.evaluates = true)
      (done : s.settings.evaluate lib s.entry = .ok (v, w)) :
      Shows { result := Display.result s.digits v, working := w }
  | failed {fault : Fault} {message : Text} {kind : Option Kind} (evaluates : a.evaluates = true)
      (failed : s.settings.evaluate lib s.entry = .error fault) (worded : message ≠ []) :
      Shows { result := s.result, error := message, errorKind := kind }

/-- **Every action** keeps what is shown, empties it, or evaluates the entry and shows how that
ends. -/
theorem act_shows : Shows lib s a (act lib s a).shown := by
  cases evaluates : a.evaluates with
  | true =>
      rw [act_of_evaluates lib s a evaluates]
      cases outcome : s.settings.evaluate lib s.entry with
      | ok done =>
          rw [shown_equals_of_ok lib s outcome]
          exact .succeeded evaluates outcome
      | error fault =>
          obtain ⟨message, kind, worded, shown⟩ := shown_equals_of_error lib s outcome
          rw [shown]
          exact .failed evaluates outcome worded
  | false =>
      cases clears : a.clears with
      | true =>
          rw [shown_of_clears lib s a clears]
          exact .emptied clears
      | false =>
          rw [shown_of_idle lib s a evaluates clears]
          exact .kept evaluates clears

end Steps

end Session

end SciCalc
