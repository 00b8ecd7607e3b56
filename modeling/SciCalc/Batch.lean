/-
# SciCalc.Batch -- expressions evaluated one after another

Each expression of a batch gives one line: its value on the output, or its fault
on the error output.  The exit code is zero when none failed.  Records of the
journal go to the error output too, each before the line it explains, as far as
the logger writes them.  The logger is given the text of its filter if there is
one, and what it has to say about that comes first.
-/
import SciCalc.Display
import SciCalc.Evaluation
import SciCalc.Journal
import SciCalc.Text.Quoted

namespace SciCalc

set_option autoImplicit false

namespace Batch

/-- What a batch leaves behind, in order. -/
inductive Line where
  | output (t : Text)
  | failure (t : Text)
  | record (r : Journal.Record)
  deriving DecidableEq, Repr

/-- The outcome of a batch. -/
structure Outcome where
  code : Nat
  output : Text
  errors : Text
  deriving DecidableEq, Repr

/-- The places that a batch shows. -/
def digits : Nat := 10

/-! ## Records -/

/-- The name of the program in the journal. -/
def programTarget : Text := "calculatrice_sci"

/-- The name of the stage of normal forms in the journal. -/
def normalizeTarget : Text := "calculatrice_sci::noyau::normalise"

/-- The name of the evaluation in the journal. -/
def evaluationTarget : Text := "calculatrice_sci::noyau::eval"

/-- The program has begun. -/
def startRecord : Journal.Record :=
  ⟨.info, programTarget, "démarrage de Calculatrice scientifique"⟩

/-- The unit of angles asked for is not known. -/
def ignoredModeRecord (fault : Fault) : Journal.Record :=
  ⟨.warn, programTarget, "CALCULATRICE_MODE ignorée : ".toList ++ fault.message⟩

/-- An expression and its normal form. -/
def normalizeRecord (expression : Text) : Journal.Record :=
  ⟨.trace, normalizeTarget, "normalise: ".toList ++ expression.quoted ++ " -> ".toList
    ++ (normalize expression).quoted⟩

/-- An expression and its value. -/
def valueRecord (mode : AngleMode) (expression : Text) (v : Float) : Journal.Record :=
  ⟨.debug, evaluationTarget, "évalué ".toList ++ expression.quoted ++ ' ' :: '(' :: mode.text
    ++ ") -> ".toList ++ Number.text v⟩

/-- An expression and its fault. -/
def faultRecord (mode : AngleMode) (expression : Text) (fault : Fault) : Journal.Record :=
  ⟨.warn, programTarget, "échec de l’évaluation de ".toList ++ expression.quoted
    ++ ' ' :: '(' :: mode.text ++ ") : ".toList ++ fault.message⟩

/-! ## Lines -/

/-- What the evaluation of one expression leaves behind. -/
def linesOf (lib : Elementary) (s : Settings) (expression : Text) : List Line :=
  .record (normalizeRecord expression) ::
    match s.valueOf lib expression with
    | .ok v =>
      [.record (valueRecord s.mode expression v),
        .output (expression ++ " = ".toList ++ Display.result digits v)]
    | .error fault =>
      [.record (faultRecord s.mode expression fault),
        .failure (expression ++ " : ".toList ++ fault.message)]

/-- The unit of angles that a batch uses and the records of how it was chosen. -/
def chooseMode : Option Text → AngleMode × List Line
  | none => (.degrees, [])
  | some t =>
    match AngleMode.read t with
    | .ok mode => (mode, [])
    | .error fault => (.degrees, [.record (ignoredModeRecord fault)])

/-- What a batch leaves behind; `modeText` names the unit of angles. -/
def lines (lib : Elementary) (modeText : Option Text) (expressions : List Text) : List Line :=
  let (mode, records) := chooseMode modeText
  .record startRecord :: records
    ++ expressions.flatMap (linesOf lib (Settings.withMode mode))

/-- The text of a line on the output. -/
def Line.onOutput : Line → Text
  | output t => t ++ ['\n']
  | _ => []

/-- The text of a line on the error output. -/
def Line.onErrors (logger : Journal.Logger) : Line → Text
  | output _ => []
  | failure t => t ++ ['\n']
  | record r => logger.write r

/-- Whether a line reports a failure. -/
def Line.isFailure : Line → Bool
  | failure _ => true
  | _ => false

/-- Evaluates the expressions of a batch; `journal` is the text of the filter of the logger that
`logging` sets up. -/
def run (lib : Elementary) (logging : Option Text → Journal.Logger) (modeText journal : Option Text)
    (expressions : List Text) : Outcome :=
  let logger := logging journal
  let ls := lines lib modeText expressions
  { code := if ls.any Line.isFailure then 1 else 0
    output := ls.flatMap Line.onOutput
    errors := logger.opening ++ ls.flatMap (Line.onErrors logger) }

end Batch

end SciCalc
