/-
# SciCalc.Proofs.Display.Layouts -- a decimal as it is shown

`Display.valueOf?` reads a shown number back: a numeral, with a minus sign before
it or not, and with a power of ten behind an `e` or not.  A decimal in either of
its layouts is read back as its value, and has no zero at the end behind a point
if its coefficient does not end in one (`Display.Writes`).

So the zeros at the end may be taken from the coefficient or from the text.  A
zero less at the end of the coefficient is a zero less at the end of the text, or
the point less (`Display.withoutEndZeros_positional_mul_ten`); a trimmed decimal
is reached by such steps, and its text has nothing left to take
(`Display.withoutEndZeros_positional`, `Display.withoutEndZeros_mantissa`).
-/
import Mathlib
import SciCalc.Display
import SciCalc.Proofs.Decimal.Rounding

namespace SciCalc

set_option autoImplicit false

namespace Display

variable {d : Decimal} {k : Nat} {e : Int} {t : Text}

/-! ## Reading what is shown -/

/-- Reads a text with a minus sign before it or not. -/
def signed? {α : Type} [Neg α] (read : Text → Option α) (t : Text) : Option α :=
  if t.head? = some '-' then (read t.tail).map fun x => -x else read t

/-- The integer that digits denote. -/
def whole? (t : Text) : Option Int :=
  if !t.isEmpty && t.all Char.isDigit then some (Decimal.natOfDigits t) else none

/-- What stands before the exponent. -/
def significandPart (t : Text) : Text := t.takeWhile (· != 'e')

/-- The number that a text without a sign denotes. -/
def magnitudeOf? (t : Text) : Option ℚ :=
  match t.dropWhile (· != 'e') with
  | [] => (Decimal.ofNumeral? t).map Decimal.value
  | _ :: power =>
    (Decimal.ofNumeral? (significandPart t)).bind fun d =>
      (signed? whole? power).map fun e => d.value * 10 ^ e

/-- The number that a shown text denotes. -/
def valueOf? (t : Text) : Option ℚ := signed? magnitudeOf? t

/-- No point at the end of the digits, and no zero at their end behind a point. -/
def IsTidy (t : Text) : Prop :=
  '.' ∈ significandPart t →
    (significandPart t).getLast? ≠ some '.' ∧ (significandPart t).getLast? ≠ some '0'

section Signs

variable {α : Type} [Neg α] (read : Text → Option α)

theorem signed?_minus (t : Text) : signed? read ('-' :: t) = (read t).map fun x => -x := if_pos rfl

/-- A text that begins with a digit has no sign. -/
theorem signed?_of_digit {t : Text} (digit : ∃ c ∈ t.head?, c.isDigit = true) :
    signed? read t = read t := by
  obtain ⟨c, first, digit⟩ := digit
  refine if_neg fun minus => ?_
  obtain rfl : c = '-' := Option.some.inj (first.symm.trans minus)
  cases digit

theorem head?_ofNat (n : Nat) : ∃ c ∈ (Text.ofNat n).head?, c.isDigit = true := by
  obtain ⟨c, rest, digits⟩ := List.exists_cons_of_ne_nil (Nat.toDigits_ne_nil (n := n) (b := 10))
  change Text.ofNat n = _ at digits
  exact ⟨c, by rw [digits]; rfl, Decimal.isDigit_ofNat (n := n) (by simp [digits])⟩

end Signs

theorem whole?_ofNat (n : Nat) : whole? (Text.ofNat n) = some (n : Int) := by
  have some : Text.ofNat n ≠ [] := Nat.toDigits_ne_nil
  have all : (Text.ofNat n).all Char.isDigit = true :=
    List.all_eq_true.2 fun _ => Decimal.isDigit_ofNat
  rw [whole?, all, Decimal.natOfDigits_ofNat]
  simp [some]

/-- An integer is read back. -/
theorem signed?_ofInt (k : Int) : signed? whole? (Text.ofInt k) = some k := by
  unfold Text.ofInt
  split
  · rename_i below
    rw [signed?_minus, whole?_ofNat, Option.map_some]
    congr 1
    omega
  · rename_i notBelow
    rw [signed?_of_digit whole? (head?_ofNat _), whole?_ofNat]
    congr 1
    omega

/-- A numeral ends where the exponent begins. -/
theorem significandPart_append {t : Text} (numeral : ∀ c ∈ t, Decimal.isNumeral c = true)
    (rest : Text) (next : ∀ c ∈ rest.head?, c = 'e') :
    significandPart (t ++ rest) = t ∧ (t ++ rest).dropWhile (· != 'e') = rest := by
  have other : ∀ c ∈ t, (c != 'e') = true := by
    intro c member
    rw [bne_iff_ne]
    rintro rfl
    exact absurd (numeral 'e' member) (by decide)
  rw [significandPart, List.takeWhile_append_of_pos other, List.dropWhile_append_of_pos other]
  cases rest with
  | nil => simp
  | cons c rest =>
      obtain rfl := next c rfl
      simp

/-! ## The layouts of a decimal -/

/-- Digits behind a point that do not end in a zero end in another digit. -/
theorem getLast?_point {whole fraction : Text} (some : fraction ≠ [])
    (digits : ∀ c ∈ fraction, c.isDigit = true)
    (last : Decimal.natOfDigits (whole ++ fraction) % 10 ≠ 0) :
    (whole ++ '.' :: fraction).getLast? ≠ .some '.' ∧
      (whole ++ '.' :: fraction).getLast? ≠ .some '0' := by
  obtain ⟨front, c, rfl⟩ := List.eq_nil_or_concat' fraction |>.resolve_left some
  have shape : (whole ++ '.' :: (front ++ [c])).getLast? = .some c := by
    rw [← List.cons_append, ← List.append_assoc, List.getLast?_concat]
  have digit := digits c (by simp)
  rw [shape]
  constructor
  · rintro ⟨⟩
    cases digit
  · rintro ⟨⟩
    apply last
    apply Decimal.natOfDigits_of_last_zero
    rw [← List.append_assoc, List.getLast?_concat]

/-- What a text without a sign has to be for a decimal: it begins with a digit, is read as the
value, and is tidy if the decimal is trimmed. -/
structure Writes (t : Text) (d : Decimal) : Prop where
  digit : ∃ c ∈ t.head?, c.isDigit = true
  reads : magnitudeOf? t = some d.value
  tidy : d.IsTrimmed → IsTidy t

/-- Without an exponent all is numeral. -/
theorem positional_parts (d : Decimal) :
    significandPart d.positional = d.positional ∧ d.positional.dropWhile (· != 'e') = [] := by
  have numeral := significandPart_append
    (fun _ => Decimal.isNumeral_of_mem_positional (d := d)) [] nofun
  rwa [List.append_nil] at numeral

theorem writes_positional (d : Decimal) : Writes d.positional d := by
  obtain ⟨whole, fraction, some, digits, digits', same, places, shape⟩ := d.positional_spec
  obtain ⟨d', read, same'⟩ := d.ofNumeral?_positional
  have numeral := positional_parts d
  refine ⟨?_, ?_, fun trim point => ?_⟩
  · obtain ⟨c, rest, rfl⟩ := List.exists_cons_of_ne_nil some
    refine ⟨c, ?_, digits c List.mem_cons_self⟩
    rcases shape with ⟨-, written⟩ | ⟨-, written⟩ <;> rw [written] <;> rfl
  · rw [magnitudeOf?, numeral.2]
    simp [read, same']
  · rw [numeral.1] at point ⊢
    rcases shape with ⟨-, written⟩ | ⟨some', written⟩
    · rw [written] at point
      cases digits '.' point
    · rw [written]
      apply getLast?_point some' digits'
      have low : 0 < fraction.length := List.length_pos_of_ne_nil some'
      have last : d.coefficient % 10 ≠ 0 := trim.resolve_right fun none => by
        rw [none] at places
        exact low.ne' places
      have exponent : -(fraction.length : Int) = d.exponent := by omega
      have coefficient : (Decimal.natOfDigits (whole ++ fraction) : ℚ) = d.coefficient := by
        rw [Decimal.value, Decimal.value, Decimal.ofDigits, exponent] at same
        exact mul_right_cancel₀ (zpow_pos (by norm_num) _).ne' same
      have whole_eq : Decimal.natOfDigits (whole ++ fraction) = d.coefficient := by
        exact_mod_cast coefficient
      rwa [whole_eq]

/-- The digits of a significand, one before the point. -/
theorem mantissa_spec (c : Nat) :
    ∃ first others, Text.ofNat c = first :: others ∧ (∀ x ∈ [first], x.isDigit = true) ∧
      (∀ x ∈ others, x.isDigit = true) ∧
      Decimal.ofNumeral? (Decimal.mantissa (Text.ofNat c)) =
        some (Decimal.ofDigits [first] others) ∧
      (others = [] ∧ Decimal.mantissa (Text.ofNat c) = [first] ∨
        others ≠ [] ∧ Decimal.mantissa (Text.ofNat c) = [first] ++ '.' :: others) := by
  have all : ∀ x ∈ Text.ofNat c, x.isDigit = true := fun _ => Decimal.isDigit_ofNat
  have some : Text.ofNat c ≠ [] := Nat.toDigits_ne_nil
  obtain ⟨first, others, whole⟩ := List.exists_cons_of_ne_nil some
  have digit : ∀ x ∈ [first], x.isDigit = true := fun x member => all x (by simp_all)
  have digits : ∀ x ∈ others, x.isDigit = true := fun x member => all x (by simp [whole, member])
  refine ⟨first, others, whole, digit, digits, ?_⟩
  rw [whole]
  cases others with
  | nil => exact ⟨Decimal.ofNumeral?_digits (List.cons_ne_nil _ _) digit, .inl ⟨rfl, rfl⟩⟩
  | cons second rest =>
      have some : second :: rest ≠ [] := List.cons_ne_nil _ _
      exact ⟨Decimal.ofNumeral?_point (List.cons_ne_nil _ _) digit some digits, .inr ⟨some, rfl⟩⟩

/-- The digits of a significand are a numeral, and the exponent stands behind it. -/
theorem scientific_parts (d : Decimal) :
    significandPart d.scientific = Decimal.mantissa (Text.ofNat d.coefficient) ∧
      d.scientific.dropWhile (· != 'e') =
        'e' :: Text.ofInt (d.exponent + ((Text.ofNat d.coefficient).length - 1 : Nat)) := by
  obtain ⟨first, others, -, digit, digits', -, shape⟩ := mantissa_spec d.coefficient
  exact significandPart_append
    (Decimal.isNumeral_of_mem digit digits' (shape.imp And.right And.right)) _
    fun c same => (Option.some.inj same).symm

theorem writes_scientific (d : Decimal) : Writes d.scientific d := by
  have parts := scientific_parts d
  obtain ⟨first, others, whole, digit, digits', read, shape⟩ := mantissa_spec d.coefficient
  have denoted : Decimal.natOfDigits (first :: others) = d.coefficient := by
    rw [← whole, Decimal.natOfDigits_ofNat]
  refine ⟨⟨first, ?_, digit first List.mem_cons_self⟩, ?_, fun trim point => ?_⟩
  · unfold Decimal.scientific
    simp only
    rcases shape with ⟨-, written⟩ | ⟨-, written⟩ <;> rw [written] <;> rfl
  · rw [magnitudeOf?]
    simp only [parts.2, parts.1, read, signed?_ofInt, Option.bind_some, Option.map_some]
    congr 1
    rw [Decimal.value, Decimal.value, Decimal.ofDigits, List.singleton_append, denoted, whole,
      List.length_cons, Nat.add_sub_cancel, mul_assoc, ← zpow_add₀ (by norm_num)]
    congr 2
    ring
  · rw [parts.1] at point ⊢
    rcases shape with ⟨-, written⟩ | ⟨some', written⟩
    · rw [written] at point
      cases digit '.' point
    · rw [written]
      apply getLast?_point some' digits'
      rw [List.singleton_append, denoted]
      refine trim.resolve_right fun none => some' ?_
      have zero : Text.ofNat d.coefficient = ['0'] := by rw [none]; rfl
      rw [zero] at whole
      exact (List.cons.inj whole).2.symm

/-! ## Zeros at the end of a text -/

theorem withoutEndZeros_append_zero (point : '.' ∈ t) :
    withoutEndZeros (t ++ ['0']) = withoutEndZeros t := by
  have point' : '.' ∈ t ++ ['0'] := List.mem_append_left _ point
  rw [withoutEndZeros, withoutEndZeros, if_pos (List.contains_iff_mem.2 point'),
    if_pos (List.contains_iff_mem.2 point), Text.withoutEnd_append_self]

/-- A text with nothing to take at its end is left as it is. -/
theorem withoutEndZeros_of_tidy
    (tidy : '.' ∈ t → t.getLast? ≠ some '.' ∧ t.getLast? ≠ some '0') : withoutEndZeros t = t := by
  unfold withoutEndZeros
  split
  · rename_i point
    obtain ⟨noPoint, noZero⟩ := tidy (List.contains_iff_mem.1 point)
    rw [Text.withoutEnd_of_getLast? noZero, Text.withoutEnd_of_getLast? noPoint]
  · rfl

theorem withoutEndZeros_of_no_point (none : '.' ∉ t) : withoutEndZeros t = t :=
  withoutEndZeros_of_tidy fun point => absurd point none

theorem withoutEndZeros_append_point_zero (none : '.' ∉ t) :
    withoutEndZeros (t ++ ['.', '0']) = t := by
  have point : '.' ∈ t ++ ['.', '0'] := List.mem_append_right _ List.mem_cons_self
  have last : t.getLast? ≠ some '.' := fun last => none (List.mem_of_getLast? last)
  have noZeros : Text.withoutEnd '0' (t ++ ['.', '0']) = t ++ ['.'] := by
    rw [show t ++ ['.', '0'] = t ++ ['.'] ++ ['0'] by simp, Text.withoutEnd_append_self]
    exact Text.withoutEnd_of_getLast? (by simp)
  rw [withoutEndZeros, if_pos (List.contains_iff_mem.2 point), noZeros,
    Text.withoutEnd_append_self, Text.withoutEnd_of_getLast? last]

theorem withoutEndZeros_minus (t : Text) :
    withoutEndZeros ('-' :: t) = '-' :: withoutEndZeros t := by
  have same : ('-' :: t).contains '.' = t.contains '.' := by simp
  unfold withoutEndZeros
  rw [same, Text.withoutEnd_cons_of_ne (by decide), Text.withoutEnd_cons_of_ne (by decide)]
  split <;> rfl

theorem withoutSignificandZeros_minus (t : Text) :
    withoutSignificandZeros ('-' :: t) = '-' :: withoutSignificandZeros t := by
  have taken : ('-' :: t).takeWhile (· != 'e') = '-' :: t.takeWhile (· != 'e') := rfl
  have left : ('-' :: t).dropWhile (· != 'e') = t.dropWhile (· != 'e') := rfl
  unfold withoutSignificandZeros
  rw [taken, left, withoutEndZeros_minus]
  split <;> rfl

/-! ## Zeros at the end of a coefficient -/

/-- **Ten times a number** has its digits and a zero. -/
theorem ofNat_mul_ten (some : k ≠ 0) : Text.ofNat (k * 10) = Text.ofNat k ++ ['0'] := by
  have appended := Nat.toDigits_append_toDigits (b := 10) (d := 0) (by decide)
    (Nat.pos_of_ne_zero some) (by decide)
  rw [Nat.add_zero, Nat.mul_comm] at appended
  exact appended.symm

/-- The digits of a coefficient with zeros before them: one digit more than there are places, or
more than that. -/
def padded (c places : Nat) : Text :=
  List.replicate (places + 1 - (Text.ofNat c).length) '0' ++ Text.ofNat c

theorem padded_mul_ten (k places : Nat) :
    padded (k * 10) (places + 1) = padded k places ++ ['0'] := by
  by_cases none : k = 0
  · subst none
    show List.replicate (places + 1) '0' ++ ['0'] = List.replicate places '0' ++ ['0'] ++ ['0']
    rw [List.replicate_succ']
  · rw [padded, padded, ofNat_mul_ten none, List.length_append, List.length_singleton,
      Nat.add_sub_add_right, List.append_assoc]

theorem lt_length_padded (c places : Nat) : places < (padded c places).length := by
  rw [padded, List.length_append, List.length_replicate]
  omega

theorem positional_zero (c : Nat) : (⟨c, 0⟩ : Decimal).positional = padded c 0 := by
  have one := Decimal.length_ofNat_pos c
  rw [Decimal.positional, if_pos (le_refl 0), padded, Nat.sub_eq_zero_of_le (by omega)]
  exact List.append_nil _

theorem positional_neg (c places : Nat) :
    (⟨c, -((places + 1 : Nat) : Int)⟩ : Decimal).positional =
      (padded c (places + 1)).take ((padded c (places + 1)).length - (places + 1)) ++
        '.' :: (padded c (places + 1)).drop ((padded c (places + 1)).length - (places + 1)) := by
  have low : ¬ (0 : Int) ≤ -((places + 1 : Nat) : Int) := by omega
  rw [Decimal.positional, if_neg low]
  rfl

theorem positional_mul_ten_of_neg (k places : Nat) :
    (⟨k * 10, -((places + 1 : Nat) : Int)⟩ : Decimal).positional =
      (⟨k, -(places : Int)⟩ : Decimal).positional ++ if places = 0 then ['.', '0'] else ['0'] := by
  have long := lt_length_padded k places
  have cut : (padded k places ++ ['0']).length - (places + 1) =
      (padded k places).length - places := by
    rw [List.length_append, List.length_singleton]
    omega
  rw [positional_neg, padded_mul_ten, cut, List.take_append_of_le_length (by omega),
    List.drop_append_of_le_length (by omega)]
  cases places with
  | zero =>
      show _ = (⟨k, 0⟩ : Decimal).positional ++ _
      rw [positional_zero, Nat.sub_zero, List.take_length, List.drop_length, if_pos rfl]
      rfl
  | succ places =>
      rw [positional_neg, if_neg (Nat.succ_ne_zero places), List.append_assoc]
      rfl

/-- Without places a zero of the coefficient is written as one of the exponent is. -/
theorem positional_mul_ten_of_nonneg (some : k ≠ 0) (high : 0 ≤ e) :
    (⟨k * 10, e⟩ : Decimal).positional = (⟨k, e + 1⟩ : Decimal).positional := by
  obtain ⟨n, rfl⟩ := Int.eq_ofNat_of_zero_le high
  rw [Decimal.positional, Decimal.positional, if_pos high, if_pos (by omega : 0 ≤ (n : Int) + 1)]
  show Text.ofNat (k * 10) ++ List.replicate n '0' = Text.ofNat k ++ List.replicate (n + 1) '0'
  rw [ofNat_mul_ten some, List.append_assoc, List.replicate_succ]
  rfl

/-- The point stands in a text with places. -/
theorem point_mem_positional_iff (d : Decimal) : '.' ∈ d.positional ↔ d.exponent < 0 := by
  obtain ⟨whole, fraction, -, digits, -, -, places, shape⟩ := d.positional_spec
  rcases shape with ⟨none, written⟩ | ⟨some, written⟩
  · rw [none, List.length_nil] at places
    exact iff_of_false (fun point => by cases digits '.' (written ▸ point)) (by omega)
  · have positive := List.length_pos_of_ne_nil some
    exact iff_of_true (by simp [written]) (by omega)

/-- **A zero of the coefficient is a zero of the text**, or the point and a zero. -/
theorem withoutEndZeros_positional_mul_ten (proper : k ≠ 0 ∨ e < 0) :
    withoutEndZeros (⟨k * 10, e⟩ : Decimal).positional =
      withoutEndZeros (⟨k, e + 1⟩ : Decimal).positional := by
  rcases lt_or_ge e 0 with low | high
  · obtain ⟨places, rfl⟩ : ∃ places : Nat, e = -((places + 1 : Nat) : Int) :=
      ⟨(-e).toNat - 1, by omega⟩
    have next : -((places + 1 : Nat) : Int) + 1 = -(places : Int) := by omega
    have point := point_mem_positional_iff ⟨k, -(places : Int)⟩
    rw [positional_mul_ten_of_neg, next]
    split
    · rename_i last
      have none : '.' ∉ (⟨k, -(places : Int)⟩ : Decimal).positional := by
        rw [point, last]
        exact lt_irrefl (0 : Int)
      rw [withoutEndZeros_append_point_zero none, withoutEndZeros_of_no_point none]
    · rename_i more
      exact withoutEndZeros_append_zero (point.2 (Int.neg_neg_of_pos (by omega)))
  · rw [positional_mul_ten_of_nonneg (proper.resolve_right (not_lt.2 high)) high]

/-- The zeros of a zero all go. -/
theorem withoutEndZeros_positional_zero (places : Nat) :
    withoutEndZeros (⟨0, -(places : Int)⟩ : Decimal).positional = "0" := by
  induction places with
  | zero => rfl
  | succ places ih =>
      have step := withoutEndZeros_positional_mul_ten (k := 0) (e := -((places + 1 : Nat) : Int))
        (.inr (by omega))
      rwa [show -((places + 1 : Nat) : Int) + 1 = -(places : Int) by omega, ih] at step

/-- **The text without the zeros at its end** is that of the trimmed decimal. -/
theorem withoutEndZeros_positional (proper : d.coefficient ≠ 0 ∨ d.exponent ≤ 0) :
    withoutEndZeros d.positional = d.trimmed.positional := by
  by_cases none : d.coefficient = 0
  -- a zero is not trimmed step by step, so its places are counted down
  · obtain ⟨c, e⟩ := d
    obtain rfl : c = 0 := none
    obtain ⟨places, rfl⟩ := Int.exists_eq_neg_ofNat (proper.resolve_left fun some => some rfl)
    rw [withoutEndZeros_positional_zero, Decimal.trimmed, if_pos rfl]
    rfl
  · have tidy := (writes_positional d.trimmed).tidy d.isTrimmed_trimmed
    rw [IsTidy, (positional_parts d.trimmed).1] at tidy
    rw [← Decimal.eq_of_trimmed (fun d => withoutEndZeros d.positional) none
      fun k e some => withoutEndZeros_positional_mul_ten (.inl some)]
    exact withoutEndZeros_of_tidy tidy

theorem withoutEndZeros_mantissa_append_zero (t : Text) (digits : ∀ c ∈ t, c.isDigit = true)
    (some : t ≠ []) :
    withoutEndZeros (Decimal.mantissa (t ++ ['0'])) = withoutEndZeros (Decimal.mantissa t) := by
  match t with
  | [] => exact absurd rfl some
  | [first] =>
      have none : '.' ∉ [first] := fun point => by cases digits '.' point
      show withoutEndZeros ([first] ++ ['.', '0']) = withoutEndZeros [first]
      rw [withoutEndZeros_append_point_zero none, withoutEndZeros_of_no_point none]
  | first :: second :: rest =>
      exact withoutEndZeros_append_zero (t := first :: '.' :: second :: rest) (by simp)

/-- **The same with an exponent**, which counts from the first digit and so stays. -/
theorem withoutSignificandZeros_scientific (some : d.coefficient ≠ 0) :
    withoutSignificandZeros d.scientific = d.trimmed.scientific := by
  have parts (d : Decimal) : withoutSignificandZeros d.scientific =
      withoutEndZeros (Decimal.mantissa (Text.ofNat d.coefficient)) ++
        'e' :: Text.ofInt (d.exponent + ((Text.ofNat d.coefficient).length - 1 : Nat)) := by
    obtain ⟨significand, power⟩ := scientific_parts d
    rw [withoutSignificandZeros, power, ← significand]
    rfl
  have tidy := (writes_scientific d.trimmed).tidy d.isTrimmed_trimmed
  rw [IsTidy, (scientific_parts d.trimmed).1] at tidy
  rw [← Decimal.eq_of_trimmed (fun d => withoutSignificandZeros d.scientific) some, parts,
    withoutEndZeros_of_tidy tidy]
  · rfl
  · intro k e some
    have digits : ∀ c ∈ Text.ofNat k, c.isDigit = true := fun _ => Decimal.isDigit_ofNat
    have one := Decimal.length_ofNat_pos k
    simp only [parts, ofNat_mul_ten some]
    rw [withoutEndZeros_mantissa_append_zero _ digits Nat.toDigits_ne_nil, List.length_append,
      List.length_singleton]
    congr 3
    omega

end Display

end SciCalc
