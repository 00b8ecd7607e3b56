/-
# SciCalc.Session -- the calculator with its keys and its display

`Session.State` is what the application shows: the entry, the last result, the
last error with its class, the record of the stages, the number of places shown,
the settings and the panel of direct operations.  `Session.Action` is what can
be done to it and `Session.act` does it; nothing is evaluated but by `equals`
and by the panel.

A failed evaluation keeps the last result and drops the record; a successful one
replaces both and clears the error.
-/
import SciCalc.Direct
import SciCalc.Display
import SciCalc.Entry
import SciCalc.Evaluation

namespace SciCalc

set_option autoImplicit false

namespace Session

/-- The places that are shown at the beginning. -/
def digitsDefault : Nat := 10

/-- The panel of direct operations. -/
structure Panel where
  a : Float := 0.0
  b : Float := 0.0
  function : Text := "sin"
  output : Text := []
  deriving DecidableEq

/-- What the application shows. -/
structure State where
  entry : Text := []
  result : Text := []
  error : Text := []
  errorKind : Option Kind := none
  working : Working := {}
  digits : Nat := digitsDefault
  settings : Settings := {}
  panel : Panel := {}
  /-- Whether the entry is to receive what is typed next. -/
  focusRequested : Bool := true
  deriving DecidableEq

/-- The most places that can be shown. -/
def digitsCeiling : Nat := 17

namespace State

/-! ## What the buttons do -/

/-- Empties the entry. -/
def clearEntry (s : State) : State := { s with entry := [], focusRequested := true }

/-- Empties the result, the error and the record. -/
def clearResults (s : State) : State :=
  { s with result := [], error := [], errorKind := none, working := {}, focusRequested := true }

/-- Puts everything back to the beginning: the entry, what is shown, the places, the settings and
the panel. -/
def reset (s : State) : State :=
  { s.clearResults with
    entry := [], digits := digitsDefault, settings := {}, panel := {}, focusRequested := true }

@[simp] theorem reset_eq (s : State) : s.reset = {} := rfl

/-- Shows an error; the last result stays. -/
def showError (s : State) (message : Text) (kind : Option Kind) : State :=
  { s with error := message, errorKind := kind, working := {}, focusRequested := true }

/-- Shows a result and its record. -/
def showResult (s : State) (result : Text) (working : Working) : State :=
  { s with
    result := result, error := [], errorKind := none, working := working, focusRequested := true }

/-- Changes the number of places shown. -/
def setDigits (s : State) (n : Nat) : State :=
  { s with digits := min n digitsCeiling, focusRequested := true }

/-- Changes the unit of angles for what follows. -/
def setMode (s : State) (mode : AngleMode) : State :=
  { s with settings := s.settings.setMode mode, focusRequested := true }

/-- Changes the limit on the number of tokens. -/
def setMaxTokens (s : State) (n : Nat) : State :=
  { s with settings := s.settings.setMaxTokens n }

/-- Changes the limit on open parentheses. -/
def setMaxNesting (s : State) (n : Nat) : State :=
  { s with settings := s.settings.setMaxNesting n }

/-- Changes the limit on the height of the tree. -/
def setMaxHeight (s : State) (n : Nat) : State :=
  { s with settings := s.settings.setMaxHeight n }

/-- Inserts the text of a key. -/
def press (s : State) (k : Key) : State :=
  { s with entry := Entry.press k s.entry, focusRequested := true }

/-- Takes the last symbol of the entry away. -/
def delete (s : State) : State :=
  { s with entry := Entry.delete s.entry, focusRequested := true }

/-- Evaluates the entry and shows the outcome. -/
def equals (lib : Elementary) (s : State) : State :=
  let t := s.entry.trim
  if t.isEmpty then s.showError "Entrée vide" none
  else match s.settings.evaluate lib t with
    | .ok (v, working) => s.showResult (Display.result s.digits v) working
    | .error fault => s.showError fault.message (some fault.kind)

/-! ## The panel of direct operations -/

/-- A value as it is shown, or the message of a fault after the name of its class. -/
def outcomeText (digits : Nat) : Except Fault Float → Text
  | .ok v => Display.result digits v
  | .error fault => '[' :: fault.kind.label ++ ']' :: ' ' :: fault.message

/-- Shows a text in the panel. -/
def showDirect (s : State) (t : Text) : State := { s with panel := { s.panel with output := t } }

/-- Applies the operation with a given sign to the two numbers of the panel. -/
def applyOperator (lib : Elementary) (s : State) (sign : Text) : State :=
  s.showDirect (outcomeText s.digits (Direct.applyOperator lib s.panel.a s.panel.b sign))

/-- Applies the function of the panel to its first number. -/
def applyFunction (lib : Elementary) (s : State) : State :=
  s.showDirect (outcomeText s.digits
    (Direct.applyFunction lib s.settings.mode s.panel.a s.panel.function))

/-- Converts the first number of the panel from one unit of angles to the other. -/
def convert (s : State) (source target : AngleMode) : State :=
  s.showDirect (Display.result s.digits (AngleMode.convert s.panel.a source target))

/-! ## What is shown -/

/-- The line above the result. -/
def resultTitle (s : State) : Text :=
  "Résultat (".toList ++ s.settings.mode.text ++ ") :".toList

/-- The line under the keys, if there is an error. -/
def errorLine (s : State) : Option Text :=
  if s.error.isEmpty then none
  else match s.errorKind with
    | some kind => some ('[' :: kind.label ++ ']' :: ' ' :: s.error)
    | none => some s.error

end State

/-- What can be done to the application. -/
inductive Action where
  | type (entry : Text)
  | clearEntry
  | clearResults
  | reset
  | press (k : Key)
  | delete
  | equals
  | escape
  /-- The Enter key, with or without the entry receiving it. -/
  | enter (received : Bool)
  | chooseMode (mode : AngleMode)
  | setDigits (n : Nat)
  | setMaxTokens (n : Nat)
  | setMaxNesting (n : Nat)
  | setMaxHeight (n : Nat)
  | setFirst (a : Float)
  | setSecond (b : Float)
  | chooseFunction (name : Text)
  | applyOperator (sign : Text)
  | applyFunction
  | convert (source target : AngleMode)
  deriving DecidableEq

/-- The application after an action. -/
def act (lib : Elementary) (s : State) : Action → State
  | .type entry => { s with entry := entry }
  | .clearEntry => s.clearEntry
  | .clearResults => s.clearResults
  | .reset => s.reset
  | .press k => s.press k
  | .delete => s.delete
  | .equals => s.equals lib
  | .escape => s.clearEntry
  | .enter received => if received then s.equals lib else s
  | .chooseMode mode => if mode = s.settings.mode then s else s.setMode mode
  | .setDigits n => s.setDigits n
  | .setMaxTokens n => s.setMaxTokens n
  | .setMaxNesting n => s.setMaxNesting n
  | .setMaxHeight n => s.setMaxHeight n
  | .setFirst a => { s with panel := { s.panel with a := a } }
  | .setSecond b => { s with panel := { s.panel with b := b } }
  | .chooseFunction name => { s with panel := { s.panel with function := name } }
  | .applyOperator sign => s.applyOperator lib sign
  | .applyFunction => s.applyFunction lib
  | .convert source target => s.convert source target

/-- The application after actions, one after another. -/
def run (lib : Elementary) (s : State) (actions : List Action) : State :=
  actions.foldl (act lib) s

@[simp] theorem run_nil (lib : Elementary) (s : State) : run lib s [] = s := rfl

@[simp] theorem run_cons (lib : Elementary) (s : State) (a : Action) (actions : List Action) :
    run lib s (a :: actions) = run lib (act lib s a) actions := rfl

theorem run_append (lib : Elementary) (s : State) (first second : List Action) :
    run lib s (first ++ second) = run lib (run lib s first) second := by
  simp [run]

end Session

end SciCalc
