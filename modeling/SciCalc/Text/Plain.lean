/-
# SciCalc.Text.Plain -- texts without the controls of a terminal

A text that goes to a file is read without a terminal, so what only a terminal
understands is taken out of it (`Text.plain`): control characters other than the
tab, the line feed, the form feed and the carriage return, and the sequences
that the escape character begins.  A sequence ends with the character that its
kind prescribes; one of the four kept controls breaks it off, except inside a
string.  What holds no control is left as it is (`plain_of_visible`).
-/
import SciCalc.Text

namespace SciCalc

set_option autoImplicit false

namespace Text

/-- Where a reader stands: in the text, or in a sequence of one of five kinds. -/
inductive Position where
  | text
  /-- after the escape character -/
  | escape
  /-- after the escape character and a character between the space and `/` -/
  | intermediate
  /-- in a sequence of parameters, which a letter ends -/
  | parameters
  /-- in a command to the system, which the bell ends -/
  | command
  /-- in a string to the device, which its terminator ends -/
  | string
  deriving DecidableEq, Repr

/-- The controls that place the text on the page. -/
def isLayout (c : Char) : Bool := c = '\t' || c = '\n' || c = '\x0c' || c = '\r'

/-- Whether a character is no control of the first thirty-two and not the deletion. -/
def isVisible (c : Char) : Bool := 0x20 ≤ c.toNat && c.toNat ≠ 0x7f

/-- Whether a code point lies between two others. -/
def isBetween (low high : Nat) (c : Char) : Bool := low ≤ c.toNat && c.toNat ≤ high

namespace Position

/-- The place after the character that follows the escape character. -/
def afterEscape (c : Char) : Position :=
  if c = '[' then parameters
  else if c = ']' then command
  else if c = 'P' || c = 'X' || c = '^' || c = '_' then string
  else if isBetween 0x20 0x2f c then intermediate
  else if isBetween 0x30 0x7e c then text
  else escape

/-- The place after a character that is neither a layout control nor one that begins or cancels
a sequence. -/
def after (c : Char) : Position → Position
  | text => text
  | escape => afterEscape c
  | intermediate => if isBetween 0x30 0x7e c then text else intermediate
  | parameters => if isBetween 0x40 0x7e c then text else parameters
  | command => if c = '\x07' then text else command
  | string => if c.toNat = 0x9c then text else string

/-- Whether a layout control is only a part of what is sent to the system or to the device. -/
def isSending : Position → Bool
  | command | string => true
  | _ => false

/-- The place after a character, and whether the character is kept. -/
def step (p : Position) (c : Char) : Position × Bool :=
  if isLayout c then if p.isSending then (p, false) else (text, true)
  else if c = '\x1b' then (escape, false)
  else if c = '\x18' || c = '\x1a' then (text, false)
  else (p.after c, p = text && isVisible c)

end Position

/-- The kept characters of a text that is read from a given place. -/
def plainFrom : Position → Text → Text
  | _, [] => []
  | p, c :: rest =>
    match p.step c with
    | (next, true) => c :: plainFrom next rest
    | (next, false) => plainFrom next rest

/-- A text without controls and control sequences. -/
def plain (t : Text) : Text := plainFrom .text t

theorem step_of_visible (c : Char) (visible : isVisible c = true) :
    Position.text.step c = (.text, true) := by
  have bounds : 0x20 ≤ c.toNat ∧ c.toNat ≠ 0x7f := by simpa [isVisible] using visible
  have apart (d : Char) (low : d.toNat < 0x20) : c ≠ d := by
    intro same
    subst same
    omega
  simp [Position.step, isLayout, Position.after, visible, apart '\t' (by decide),
    apart '\n' (by decide), apart '\x0c' (by decide), apart '\r' (by decide),
    apart '\x1b' (by decide), apart '\x18' (by decide), apart '\x1a' (by decide)]

/-- Visible characters are kept, whatever follows them. -/
theorem plain_append_of_visible (t u : Text) (visible : ∀ c ∈ t, isVisible c = true) :
    plain (t ++ u) = t ++ plain u := by
  induction t with
  | nil => rfl
  | cons c rest ih =>
    have kept := ih fun d member => visible d (List.mem_cons_of_mem c member)
    have first := step_of_visible c (visible c List.mem_cons_self)
    simp only [plain] at kept
    simp [plain, plainFrom, first, kept]

/-- A text without controls is plain. -/
theorem plain_of_visible (t : Text) (visible : ∀ c ∈ t, isVisible c = true) : plain t = t := by
  simpa [plain, plainFrom] using plain_append_of_visible t [] visible

end Text

end SciCalc
