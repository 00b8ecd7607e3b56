/-
# SciCalc.Proofs.Text.Classes -- classes of characters as ranges of code points

The ASCII classes that cutting and reading consult, each as a condition on the
code point, so that two of them are told apart by arithmetic.  White space lies
outside the visible ASCII characters (`isBlank_eq_false_of_visible`).
-/
import SciCalc.Decimal
import SciCalc.Text.Blank
import SciCalc.Text.Letter

namespace SciCalc

set_option autoImplicit false

variable {c : Char}

/-- The characters between two of them, by their code points. -/
theorem between_iff (low high : UInt32) :
    (decide (c.val ≥ low) && decide (c.val ≤ high)) = true ↔
      low.toNat ≤ c.toNat ∧ c.toNat ≤ high.toNat := by
  simp only [Bool.and_eq_true, decide_eq_true_eq, ge_iff_le, UInt32.le_iff_toNat_le]
  rfl

theorem isAlpha_iff :
    c.isAlpha = true ↔ 65 ≤ c.toNat ∧ c.toNat ≤ 90 ∨ 97 ≤ c.toNat ∧ c.toNat ≤ 122 := by
  have upper : c.isUpper = (decide (c.val ≥ 65) && decide (c.val ≤ 90)) := Bool.decide_and ..
  have capital : c.isUpper = true ↔ 65 ≤ c.toNat ∧ c.toNat ≤ 90 := by
    rw [upper]
    exact between_iff 65 90
  have small : c.isLower = true ↔ 97 ≤ c.toNat ∧ c.toNat ≤ 122 := between_iff 97 122
  show (c.isUpper || c.isLower) = true ↔ _
  rw [Bool.or_eq_true, capital, small]

theorem isDigit_iff : c.isDigit = true ↔ 48 ≤ c.toNat ∧ c.toNat ≤ 57 := between_iff 48 57

theorem isNumeral_iff :
    Decimal.isNumeral c = true ↔ 48 ≤ c.toNat ∧ c.toNat ≤ 57 ∨ c.toNat = 46 := by
  have point : c = '.' ↔ c.toNat = 46 := Char.toNat_inj.symm
  simp only [Decimal.isNumeral, Bool.or_eq_true, isDigit_iff, beq_iff_eq, point]

theorem isAlpha_eq_false_of_isNumeral (digit : Decimal.isNumeral c = true) : c.isAlpha = false := by
  rw [Bool.eq_false_iff, Ne, isAlpha_iff]
  rw [isNumeral_iff] at digit
  omega

theorem isLetter_of_isAlpha (letter : c.isAlpha = true) : isLetter c = true := by
  have ascii : c.toNat < 0x80 := by
    rw [isAlpha_iff] at letter
    omega
  rw [isLetter, if_pos ascii, letter]

theorem isAlpha_eq_false_of_not_isLetter (noLetter : isLetter c = false) : c.isAlpha = false := by
  rw [Bool.eq_false_iff]
  intro letter
  rw [isLetter_of_isAlpha letter] at noLetter
  cases noLetter

theorem isLetter_eq_false_of_isNumeral (digit : Decimal.isNumeral c = true) :
    isLetter c = false := by
  have ascii : c.toNat < 0x80 := by
    rw [isNumeral_iff] at digit
    omega
  rw [isLetter, if_pos ascii, isAlpha_eq_false_of_isNumeral digit]

/-- No white space lies between the exclamation mark and the last control character. -/
theorem isBlank_eq_false_of_visible (low : 0x21 ≤ c.toNat) (high : c.toNat ≤ 0x84) :
    isBlank c = false := by
  rw [Bool.eq_false_iff, Ne, isBlank, CodePoints.holds_iff]
  rintro ⟨r, member, above, below⟩
  have apart : ∀ r ∈ blankRanges, r.2 ≤ 0x20 ∨ 0x85 ≤ r.1 := by decide
  have := apart r member
  omega

theorem isBlank_eq_false_of_isAlpha (letter : c.isAlpha = true) : isBlank c = false := by
  rw [isAlpha_iff] at letter
  exact isBlank_eq_false_of_visible (by omega) (by omega)

theorem isBlank_eq_false_of_isNumeral (digit : Decimal.isNumeral c = true) :
    isBlank c = false := by
  rw [isNumeral_iff] at digit
  exact isBlank_eq_false_of_visible (by omega) (by omega)

/-- The lower case of an ASCII letter is one. -/
theorem isAlpha_toLower (letter : c.isAlpha = true) : c.toLower.isAlpha = true := by
  unfold Char.toLower
  split
  · rename_i upper
    have low := UInt32.le_iff_toNat_le.1 upper.1
    have high := UInt32.le_iff_toNat_le.1 upper.2
    have shift : ('a'.val - 'A'.val).toNat = 32 := rfl
    have upperA : ('A'.val).toNat = 65 := rfl
    have upperZ : ('Z'.val).toNat = 90 := rfl
    rw [isAlpha_iff]
    show 65 ≤ (c.val + ('a'.val - 'A'.val)).toNat ∧ _ ∨ 97 ≤ (c.val + ('a'.val - 'A'.val)).toNat ∧
      (c.val + ('a'.val - 'A'.val)).toNat ≤ 122
    rw [UInt32.toNat_add]
    omega
  · exact letter

theorem isAlpha_of_mem_map_toLower {w : Text} (letters : ∀ c ∈ w, c.isAlpha = true) :
    ∀ c ∈ w.map Char.toLower, c.isAlpha = true := by
  intro c member
  obtain ⟨d, among, rfl⟩ := List.mem_map.1 member
  exact isAlpha_toLower (letters d among)

end SciCalc
