/-
# SciCalc.Text -- texts as lists of characters

Every pass of the calculator -- cutting an entry into pieces, reading tokens,
printing a tree, writing a message -- works on one character after another, so
a text is a `List Char` throughout the library and every pass is a recursion on
that list.  String literals stand for their characters.
-/

namespace SciCalc

set_option autoImplicit false

/-- A text, first character first. -/
abbrev Text := List Char

/-- A string literal is read as the list of its characters. -/
instance : Coe String Text := ⟨String.toList⟩

namespace Text

/-- The decimal digits of a natural number. -/
def ofNat (n : Nat) : Text := Nat.toDigits 10 n

/-- The texts in order, `separator` between neighbours. -/
def join (separator : Text) : List Text → Text
  | [] => []
  | [t] => t
  | t :: u :: rest => t ++ separator ++ join separator (u :: rest)

/-- Whether a text ends with another one. -/
def endsWith (t ending : Text) : Bool := ending.isSuffixOf t

/-- A text without its last `n` characters. -/
def dropEnd (t : Text) (n : Nat) : Text := t.take (t.length - n)

/-- A text without the characters `c` at its end. -/
def withoutEnd (c : Char) (t : Text) : Text := (t.reverse.dropWhile (· == c)).reverse

/-- Whether one text stands somewhere in another. -/
def includes : Text → Text → Bool
  | [], piece => piece.isEmpty
  | c :: rest, piece => piece.isPrefixOf (c :: rest) || includes rest piece

/-- The pieces of a text between the places of a character. -/
def splitAtEach (separator : Char) : Text → List Text
  | [] => [[]]
  | c :: rest =>
    if c = separator then [] :: splitAtEach separator rest
    else match splitAtEach separator rest with
      | piece :: pieces => (c :: piece) :: pieces
      | [] => [[c]]

@[simp] theorem join_nil (separator : Text) : join separator [] = [] := rfl

@[simp] theorem join_singleton (separator t : Text) : join separator [t] = t := rfl

@[simp] theorem dropEnd_zero (t : Text) : dropEnd t 0 = t := by
  simp [dropEnd]

/-- Dropping exactly an appended ending gives back what stood before it. -/
theorem dropEnd_append (t ending : Text) : dropEnd (t ++ ending) ending.length = t := by
  simp [dropEnd]

@[simp] theorem withoutEnd_append_self (c : Char) (t : Text) :
    withoutEnd c (t ++ [c]) = withoutEnd c t := by
  simp [withoutEnd]

/-- Where another character stands at the end, nothing goes. -/
theorem withoutEnd_of_getLast? {c : Char} {t : Text} (last : t.getLast? ≠ some c) :
    withoutEnd c t = t := by
  rcases List.eq_nil_or_concat t with rfl | ⟨front, a, rfl⟩
  · rfl
  · have different : a ≠ c := by simpa using last
    simp [withoutEnd, different]

/-- A first character of another kind stays, whatever goes behind it. -/
theorem withoutEnd_cons_of_ne {a c : Char} (different : a ≠ c) (t : Text) :
    withoutEnd c (a :: t) = a :: withoutEnd c t := by
  rw [withoutEnd, List.reverse_cons, List.dropWhile_append]
  split
  · rename_i nothing
    rw [withoutEnd, List.isEmpty_iff.1 nothing]
    simp [different]
  · rw [withoutEnd, List.reverse_concat]

end Text

end SciCalc
