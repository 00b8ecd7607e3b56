/-
# SciCalc.Text.Blank -- white space and trimming

White space is the Unicode property `White_Space`: twenty-five characters, the
no-break space and the ideographic space among them, the zero-width space not.
A text is trimmed at its end (`Text.trimEnd`) or on both sides (`Text.trim`).
-/
import SciCalc.Text.CodePoint

namespace SciCalc

set_option autoImplicit false

/-- The code points with the property `White_Space`. -/
def blankRanges : CodePoints :=
  [(0x9, 0xd), (0x20, 0x20), (0x85, 0x85), (0xa0, 0xa0), (0x1680, 0x1680), (0x2000, 0x200a),
    (0x2028, 0x2029), (0x202f, 0x202f), (0x205f, 0x205f), (0x3000, 0x3000)]

/-- Whether a character is white space. -/
def isBlank (c : Char) : Bool := blankRanges.holds c.toNat

namespace Text

/-- A text without the white space at its beginning. -/
def trimStart (t : Text) : Text := t.dropWhile isBlank

/-- A text without the white space at its end. -/
def trimEnd (t : Text) : Text := (t.reverse.dropWhile isBlank).reverse

/-- A text without the white space at either end. -/
def trim (t : Text) : Text := t.trimStart.trimEnd

/-- A text without any of its white space. -/
def withoutBlanks (t : Text) : Text := t.filter fun c => !isBlank c

@[simp] theorem trimEnd_nil : trimEnd [] = [] := rfl

theorem trimEnd_append_blank (t : Text) (c : Char) (blank : isBlank c = true) :
    trimEnd (t ++ [c]) = trimEnd t := by
  simp [trimEnd, blank]

theorem trimEnd_append_of_not_blank (t : Text) (c : Char) (visible : isBlank c = false) :
    trimEnd (t ++ [c]) = t ++ [c] := by
  simp [trimEnd, visible]

theorem withoutBlanks_trimStart (t : Text) : t.trimStart.withoutBlanks = t.withoutBlanks := by
  induction t with
  | nil => rfl
  | cons c t ih =>
      cases white : isBlank c with
      | false => simp [trimStart, white]
      | true =>
          have first : withoutBlanks (c :: t) = withoutBlanks t := by simp [withoutBlanks, white]
          rw [first, ← ih, trimStart, List.dropWhile_cons_of_pos white, trimStart]

theorem withoutBlanks_trimEnd (t : Text) : t.trimEnd.withoutBlanks = t.withoutBlanks := by
  have mirrored := withoutBlanks_trimStart t.reverse
  simp only [withoutBlanks, trimStart, List.filter_reverse] at mirrored
  simp [trimEnd, withoutBlanks, List.filter_reverse, mirrored]

/-- Trimming loses nothing but white space. -/
theorem withoutBlanks_trim (t : Text) : t.trim.withoutBlanks = t.withoutBlanks := by
  rw [trim, withoutBlanks_trimEnd, withoutBlanks_trimStart]

@[simp] theorem withoutBlanks_append (t u : Text) :
    withoutBlanks (t ++ u) = withoutBlanks t ++ withoutBlanks u := by
  simp [withoutBlanks]

end Text

end SciCalc
