/-
# SciCalc.Journal.Machine -- the logger of the machine

The logger that runs keeps the records that its filter admits.  It writes each of
them as one line, the level first, without what only a terminal understands; what
cannot be read in the text of the filter is warned about before the first record.
-/
import SciCalc.Journal.Filter
import SciCalc.Text.Plain

namespace SciCalc

set_option autoImplicit false

namespace Journal

/-- The name of a level, five characters wide. -/
def Level.heading : Level → Text
  | error => "ERROR"
  | warn => "WARN "
  | info => "INFO "
  | debug => "DEBUG"
  | trace => "TRACE"

/-- A record as one line. -/
def Record.line (r : Record) : Text :=
  '[' :: r.level.heading ++ ' ' :: r.target ++ ']' :: ' ' :: r.text

namespace Logger

/-- The logger of the machine, given the text of a filter or none. -/
def machine (filter : Option Text) : Logger :=
  let setup := Setup.read (filter.getD [])
  { opening := setup.unreadable.flatMap fun u => u.message ++ ['\n']
    write := fun r => if setup.filter.admits r then Text.plain (r.line ++ ['\n']) else [] }

/-- Without a filter the machine writes errors only. -/
theorem errorsOnly_machine : (machine none).ErrorsOnly where
  opening := rfl
  write r serious := by
    have silent : (Setup.read []).filter.admits r = false := by
      rw [Setup.read_nil]
      cases level : r.level with
      | error => exact absurd level serious
      | _ => simp [Filter.admits, Filter.deciding, Directive.covers, Level.rank, level]
    show (if (Setup.read []).filter.admits r = true then _ else []) = []
    rw [silent, if_neg Bool.false_ne_true]

end Logger

end Journal

end SciCalc
