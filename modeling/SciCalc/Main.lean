/-
# SciCalc.Main -- the command line

Every argument is an expression.  Two variables of the environment are read:
`CALCULATRICE_MODE` names the unit of angles and `RUST_LOG` is the filter of the
journal.  All decisions are those of `Batch.run`.
-/
import SciCalc.Batch
import SciCalc.Journal.Machine

set_option autoImplicit false

/-- Evaluates the arguments, prints the outcome and exits with its code. -/
def main (args : List String) : IO UInt32 := do
  let mode ← IO.getEnv "CALCULATRICE_MODE"
  let journal ← IO.getEnv "RUST_LOG"
  let outcome := SciCalc.Batch.run .machine SciCalc.Journal.Logger.machine
    (mode.map String.toList) (journal.map String.toList) (args.map String.toList)
  IO.print (String.ofList outcome.output)
  IO.eprint (String.ofList outcome.errors)
  return UInt32.ofNat outcome.code
