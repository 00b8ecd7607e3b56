/-
# SciCalc.Journal.Filter -- which records are kept

A filter is a list of directives; each lets through the records of the targets
that begin with its own, up to a level.  Of the directives that match a target
the longest decides, and of two of one length the later; a target that none
matches is silent.  There is one directive for a target: a second one takes the
place of the first.  Without any directive errors are kept.

A filter is written as directives between commas: `target=level`, a level for
every target, or a target, with or without the sign, at every level.  Behind a
slash stands a text that the records must include.  What cannot be read is
passed over with a warning (`Journal.Setup`).
-/
import SciCalc.Journal
import SciCalc.Text.Blank
import SciCalc.Text.LowerCase

namespace SciCalc

set_option autoImplicit false

namespace Journal

/-- The place of a level, the most serious first. -/
def Level.rank : Level → Nat
  | error => 1
  | warn => 2
  | info => 3
  | debug => 4
  | trace => 5

/-- Up to which rank the records of some targets are kept; without a target, of all. -/
structure Directive where
  target : Option Text
  threshold : Nat
  deriving DecidableEq, Repr

namespace Directive

/-- Whether a directive speaks about a target. -/
def covers (d : Directive) (target : Text) : Bool := d.target.all (·.isPrefixOf target)

/-- How closely a directive describes the targets it speaks about. -/
def length (d : Directive) : Nat := (d.target.getD []).length

/-- Adds a directive, in the place of the one for the same target if there is one. -/
def addTo (d : Directive) : List Directive → List Directive
  | [] => [d]
  | e :: rest => if e.target = d.target then d :: rest else e :: d.addTo rest

end Directive

/-- Which records are kept. -/
structure Filter where
  directives : List Directive
  /-- a text that every kept record includes -/
  required : Text
  deriving DecidableEq, Repr

namespace Filter

/-- The directive that decides about a target. -/
def deciding (f : Filter) (target : Text) : Option Directive :=
  f.directives.foldl (fun best d =>
    if d.covers target && best.all (fun b => b.length ≤ d.length) then some d else best) none

/-- Whether a record is kept. -/
def admits (f : Filter) (r : Record) : Bool :=
  (f.deciding r.target).any (fun d => r.level.rank ≤ d.threshold) && r.text.includes f.required

end Filter

/-! ## Reading -/

/-- What cannot be read in the text of a filter. -/
inductive Unreadable where
  | directive (t : Text)
  /-- a filter with more than one slash -/
  | slashes (t : Text)
  deriving DecidableEq, Repr

/-- The warning about what cannot be read. -/
def Unreadable.message : Unreadable → Text
  | directive t => "warning: invalid logging spec '".toList ++ t ++ "', ignoring it".toList
  | slashes t =>
    "warning: invalid logging spec '".toList ++ t ++ "' (too many '/'s), ignoring it".toList

/-- A filter and what could not be read in its text. -/
structure Setup where
  filter : Filter
  unreadable : List Unreadable
  deriving DecidableEq, Repr

/-- The rank up to which a level lets records through; `off` lets none. -/
def threshold? (t : Text) : Option Nat :=
  match String.ofList t.lower with
  | "off" => some 0
  | "error" => some 1
  | "warn" => some 2
  | "info" => some 3
  | "debug" => some 4
  | "trace" => some 5
  | _ => none

/-- The rank that lets every record through. -/
def everything : Nat := 5

/-- Reads one directive.  White space before the sign belongs to the target. -/
def Directive.read (t : Text) : Except Unreadable Directive :=
  match t.splitAtEach '=' with
  | [word] => .ok <|
    match threshold? word with
    | some n => ⟨none, n⟩
    | none => ⟨some word, everything⟩
  | [target, level] =>
    if level.trim = [] then .ok ⟨some target, everything⟩
    else match threshold? level.trim with
      | some n => .ok ⟨some target, n⟩
      | none => .error (.directive level.trim)
  | _ => .error (.directive t)

namespace Setup

/-- Adds what one piece between commas says. -/
def add (s : Setup) (piece : Text) : Setup :=
  if piece = [] then s
  else match Directive.read piece with
    | .ok d => { s with filter.directives := d.addTo s.filter.directives }
    | .error e => { s with unreadable := s.unreadable ++ [e] }

/-- Without any directive errors are kept. -/
def orErrors (s : Setup) : Setup :=
  if s.filter.directives = [] then
    { s with filter.directives := [⟨none, Level.error.rank⟩] }
  else s

/-- Reads the directives of a filter whose required text is known. -/
def readDirectives (directives required : Text) : Setup :=
  ((directives.splitAtEach ',').map Text.trim).foldl add ⟨⟨[], required⟩, []⟩

/-- Reads the text of a filter. -/
def read (t : Text) : Setup :=
  match t.splitAtEach '/' with
  | [directives] => (readDirectives directives []).orErrors
  | [directives, required] => (readDirectives directives required).orErrors
  | _ => orErrors ⟨⟨[], []⟩, [.slashes t]⟩

/-- Without a filter errors are kept and nothing is warned about. -/
theorem read_nil : read [] = ⟨⟨[⟨none, Level.error.rank⟩], []⟩, []⟩ := rfl

end Setup

end Journal

end SciCalc
