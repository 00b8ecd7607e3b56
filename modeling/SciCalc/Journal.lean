/-
# SciCalc.Journal -- records of what happens

A record has a level, a target (the part of the program it comes from) and a
text.  What is written of it is not for the calculator to say: a batch hands its
records to a `Journal.Logger` that it is given, and all that it relies on is that
a logger without a filter writes errors only (`Journal.Logger.ErrorsOnly`).
-/
import SciCalc.Text

namespace SciCalc

set_option autoImplicit false

namespace Journal

/-- The level of a record. -/
inductive Level where
  | error
  | warn
  | info
  | debug
  | trace
  deriving DecidableEq, Repr

/-- One event. -/
structure Record where
  level : Level
  target : Text
  text : Text
  deriving DecidableEq, Repr

/-- What writes the journal on the error output. -/
structure Logger where
  /-- What it writes before the first record. -/
  opening : Text
  /-- What it writes for a record. -/
  write : Record → Text

/-- A logger that writes errors and nothing else, as one does without a filter. -/
structure Logger.ErrorsOnly (logger : Logger) : Prop where
  opening : logger.opening = []
  write : ∀ r : Record, r.level ≠ .error → logger.write r = []

end Journal

end SciCalc
