/-
# SciCalc.Proofs.Batch -- a batch answers like sessions

A batch leaves records behind and, for every expression in order, one line that
is its `Batch.answer`: a value on the output or the wording of a fault on the
error output, never both and never none (`Batch.faultLine_eq_nil_iff`).  Each
expression is answered by itself, so the outputs of a batch in two parts are the
outputs of the parts (`Batch.output_run`, `Batch.errors_run`), and a fault stops
nothing but makes the exit code one (`Batch.code_run`).  No record is an error,
so a logger that writes errors only writes nothing.

A session trims what was entered and has an error of its own for nothing at all.
Apart from that case it shows the same answer (`Batch.shown_sessionAfter`).
-/
import SciCalc.Batch
import SciCalc.Journal.Machine
import SciCalc.Proofs.Session.Steps

namespace SciCalc

set_option autoImplicit false

namespace Batch

section Lines

variable (lib : Elementary) (s : Settings)

/-! ## The answer to an expression -/

/-- What an expression is answered with: its value as it is shown, or the wording of its fault. -/
def answer (expression : Text) : Except Text Text :=
  match s.valueOf lib expression with
  | .ok v => .ok (Display.result digits v)
  | .error fault => .error fault.message

/-- The line that an answer is on the output, if it is a value. -/
def resultLine (expression : Text) : Text :=
  match answer lib s expression with
  | .ok shown => expression ++ " = ".toList ++ shown ++ ['\n']
  | .error _ => []

/-- The line that an answer is on the error output, if it is a fault. -/
def faultLine (expression : Text) : Text :=
  match answer lib s expression with
  | .ok _ => []
  | .error message => expression ++ " : ".toList ++ message ++ ['\n']

/-- Every expression has a line on one of the outputs, and not on both. -/
theorem faultLine_eq_nil_iff (expression : Text) :
    faultLine lib s expression = [] ↔ resultLine lib s expression ≠ [] := by
  unfold faultLine resultLine
  cases answer lib s expression <;> simp

theorem linesOf_onOutput (expression : Text) :
    (linesOf lib s expression).flatMap Line.onOutput = resultLine lib s expression := by
  unfold linesOf resultLine answer
  cases s.valueOf lib expression <;> simp [Line.onOutput]

/-- Where the logger writes errors only, the fault is all that is left. -/
theorem linesOf_onErrors {logger : Journal.Logger} (quiet : logger.ErrorsOnly) (expression : Text) :
    (linesOf lib s expression).flatMap (Line.onErrors logger) = faultLine lib s expression := by
  have normal : logger.write (normalizeRecord expression) = [] := quiet.write _ nofun
  unfold linesOf faultLine answer
  cases s.valueOf lib expression with
  | ok v =>
      have value : logger.write (valueRecord s.mode expression v) = [] := quiet.write _ nofun
      simp [Line.onErrors, normal, value]
  | error fault =>
      have failed : logger.write (faultRecord s.mode expression fault) = [] := quiet.write _ nofun
      simp [Line.onErrors, normal, failed]

theorem linesOf_any_isFailure (expression : Text) :
    (linesOf lib s expression).any Line.isFailure = true ↔
      ∃ message, answer lib s expression = .error message := by
  unfold linesOf answer
  cases s.valueOf lib expression <;> simp [Line.isFailure]

end Lines

/-! ## A run -/

/-- The settings that a batch evaluates with. -/
def settingsFor (modeText : Option Text) : Settings := .withMode (chooseMode modeText).1

section Run

variable (lib : Elementary) (logging : Option Text → Journal.Logger)
  (modeText journal : Option Text) (expressions : List Text)

/-- What a batch leaves behind are records, none of them an error, and then the lines of its
expressions in order. -/
theorem lines_eq :
    ∃ records : List Journal.Record, (∀ r ∈ records, r.level ≠ .error) ∧
      lines lib modeText expressions =
        records.map Line.record ++ expressions.flatMap (linesOf lib (settingsFor modeText)) := by
  unfold lines settingsFor
  cases modeText with
  | none => exact ⟨[startRecord], by simp [startRecord], rfl⟩
  | some t =>
      rw [chooseMode]
      cases AngleMode.read t with
      | ok mode => exact ⟨[startRecord], by simp [startRecord], rfl⟩
      | error fault =>
          exact ⟨[startRecord, ignoredModeRecord fault], by simp [startRecord, ignoredModeRecord],
            rfl⟩

theorem output_run :
    (run lib logging modeText journal expressions).output =
      expressions.flatMap (resultLine lib (settingsFor modeText)) := by
  obtain ⟨records, -, whole⟩ := lines_eq lib modeText expressions
  have silent : (records.map Line.record).flatMap Line.onOutput = [] := by simp [Line.onOutput]
  simp only [run]
  rw [whole, List.flatMap_append, silent, List.nil_append, List.flatMap_assoc]
  simp only [linesOf_onOutput]

theorem errors_run (quiet : (logging journal).ErrorsOnly) :
    (run lib logging modeText journal expressions).errors =
      expressions.flatMap (faultLine lib (settingsFor modeText)) := by
  obtain ⟨records, minor, whole⟩ := lines_eq lib modeText expressions
  have silent : (records.map Line.record).flatMap (Line.onErrors (logging journal)) = [] := by
    rw [List.flatMap_map, List.flatMap_eq_nil_iff]
    exact fun r member => quiet.write r (minor r member)
  simp only [run]
  rw [whole, quiet.opening, List.nil_append, List.flatMap_append, silent, List.nil_append,
    List.flatMap_assoc]
  simp only [linesOf_onErrors _ _ quiet]

/-- The exit code is zero when every expression has a value. -/
theorem code_run :
    (run lib logging modeText journal expressions).code = 0 ↔
      ∀ e ∈ expressions, ∃ shown, answer lib (settingsFor modeText) e = .ok shown := by
  obtain ⟨records, -, whole⟩ := lines_eq lib modeText expressions
  have silent : (records.map Line.record).any Line.isFailure = false := by simp [Line.isFailure]
  have succeeds (e : Text) :
      (linesOf lib (settingsFor modeText) e).any Line.isFailure = false ↔
        ∃ shown, answer lib (settingsFor modeText) e = .ok shown := by
    rw [Bool.eq_false_iff, Ne, linesOf_any_isFailure]
    cases answer lib (settingsFor modeText) e <;> simp
  simp only [run]
  rw [whole, List.any_append, silent, Bool.false_or, List.any_flatMap]
  simp only [ite_eq_right_iff, Nat.one_ne_zero, imp_false, Bool.not_eq_true, List.any_eq_false,
    ← succeeds]

end Run

/-! ## The same expression in a session -/

/-- A session that begins with a unit of angles, after an expression is entered and evaluated. -/
def sessionAfter (lib : Elementary) (mode : AngleMode) (expression : Text) : Session.State :=
  Session.run lib (Session.State.setMode {} mode) [.type expression, .equals]

/-- **A session shows the answer** to an expression that is not blank: its value as the result, its
fault as the error. -/
theorem shown_sessionAfter (lib : Elementary) (mode : AngleMode) {expression : Text}
    (visible : expression.trim ≠ []) :
    (∀ shown, answer lib (.withMode mode) expression = .ok shown →
        (sessionAfter lib mode expression).result = shown ∧
          (sessionAfter lib mode expression).error = []) ∧
      ∀ message, answer lib (.withMode mode) expression = .error message →
        (sessionAfter lib mode expression).error = message ∧
          (sessionAfter lib mode expression).result = [] := by
  let s : Session.State := { Session.State.setMode {} mode with entry := expression }
  have ended : sessionAfter lib mode expression = s.equals lib := rfl
  unfold answer Settings.valueOf
  cases outcome : (Settings.withMode mode).evaluate lib expression with
  | ok done =>
      have shown : (s.equals lib).shown = _ := Session.shown_equals_of_ok lib s outcome
      refine ⟨?_, nofun⟩
      rintro _ ⟨⟩
      rw [ended]
      exact ⟨congrArg Session.Shown.result shown, congrArg Session.Shown.error shown⟩
  | error fault =>
      have shown : (s.equals lib).shown = _ :=
        Session.shown_equals_of_visible_error lib s visible outcome
      refine ⟨nofun, ?_⟩
      rintro _ ⟨⟩
      rw [ended]
      exact ⟨congrArg Session.Shown.error shown, congrArg Session.Shown.result shown⟩

/-- **A batch answers each expression by itself, as a session does.**  Without a filter, when a
logger writes errors only, the outputs are the lines of the expressions in order, one for each on
one of the outputs; the exit code is zero when all have values; a batch in two parts has the outputs
of the parts.  An expression that is not blank has the answer that a session with the same unit of
angles shows. -/
theorem run_answers (lib : Elementary) (logging : Option Text → Journal.Logger)
    (quiet : (logging none).ErrorsOnly) (modeText : Option Text) (expressions : List Text) :
    ((run lib logging modeText none expressions).output =
          expressions.flatMap (resultLine lib (settingsFor modeText)) ∧
        (run lib logging modeText none expressions).errors =
          expressions.flatMap (faultLine lib (settingsFor modeText)) ∧
        ∀ e, faultLine lib (settingsFor modeText) e = [] ↔
          resultLine lib (settingsFor modeText) e ≠ []) ∧
      ((run lib logging modeText none expressions).code = 0 ↔
        ∀ e ∈ expressions, ∃ shown, answer lib (settingsFor modeText) e = .ok shown) ∧
      (∀ more,
        (run lib logging modeText none (expressions ++ more)).output =
            (run lib logging modeText none expressions).output ++
              (run lib logging modeText none more).output ∧
          (run lib logging modeText none (expressions ++ more)).errors =
            (run lib logging modeText none expressions).errors ++
              (run lib logging modeText none more).errors) ∧
      ∀ e : Text, e.trim ≠ [] →
        (∀ shown, answer lib (settingsFor modeText) e = .ok shown →
            (sessionAfter lib (settingsFor modeText).mode e).result = shown ∧
              (sessionAfter lib (settingsFor modeText).mode e).error = []) ∧
          ∀ message, answer lib (settingsFor modeText) e = .error message →
            (sessionAfter lib (settingsFor modeText).mode e).error = message ∧
              (sessionAfter lib (settingsFor modeText).mode e).result = [] := by
  have errors (es : List Text) := errors_run lib logging modeText none es quiet
  refine ⟨⟨output_run .., errors _, faultLine_eq_nil_iff lib _⟩, code_run .., ?_, ?_⟩
  · intro more
    simp only [output_run, errors, List.flatMap_append, and_self]
  · intro e visible
    exact shown_sessionAfter lib _ visible

/-- In radians `6*7` has its line on the output and `1/0`, after it, on the error output; a session
shows the same fault. -/
theorem run_answers_division :
    let e : Text := "1/0"
    let outcome := run .machine Journal.Logger.machine (some "rad") none ["6*7", e]
    (Journal.Logger.machine none).ErrorsOnly ∧ e.trim ≠ [] ∧
      outcome.output = "6*7 = 42\n".toList ∧
      outcome.errors = "1/0 : division par zéro\n".toList ∧
      outcome.code ≠ 0 ∧
      (sessionAfter .machine .radians e).error = "division par zéro".toList := by
  intro e outcome
  have visible : e.trim ≠ [] := by decide
  have fails : answer .machine (.withMode .radians) e = .error "division par zéro".toList := rfl
  obtain ⟨⟨outputs, errors, -⟩, code, -, shown⟩ :=
    run_answers .machine Journal.Logger.machine Journal.Logger.errorsOnly_machine (some "rad")
      ["6*7", e]
  refine ⟨Journal.Logger.errorsOnly_machine, visible, ?_, ?_, ?_, ((shown e visible).2 _ fails).1⟩
  · refine outputs.trans ?_
    decide +kernel
  · refine errors.trans ?_
    decide +kernel
  · intro zero
    obtain ⟨_, value⟩ := code.1 zero e (by simp)
    cases value

end Batch

end SciCalc
