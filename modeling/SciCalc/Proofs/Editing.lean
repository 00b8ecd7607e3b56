/-
# SciCalc.Proofs.Editing -- the symbols of an entry are a stack

A deletion sees only the text of an entry.  It takes away the longest name that
ends the text, or one character, and knows nothing of the keys that were pressed.
That it always takes the text of the last key comes from the spaces that keys put:
`Entry.lastSymbolLength_append` says which character before a text would make it
the end of a longer symbol, and no key ever leaves its text behind one
(`Entry.exists_front`).

`Entry.Holds` says that an entry holds the texts of some keys on top of a text,
white space apart.  A key puts its text on top (`Holds.press`), a deletion takes
the top away, whole (`Holds.delete`), so edits leave the texts of the keys that
they have not deleted (`Entry.holds_run`).
-/
import SciCalc.Proofs.Keypad
import SciCalc.Proofs.Session.Steps
import Mathlib.Data.List.Find
import Mathlib.Data.List.Induction
import Mathlib.Data.List.Infix

namespace SciCalc

set_option autoImplicit false

/-- Trimming twice is trimming once. -/
@[simp] theorem Text.trimEnd_trimEnd (t : Text) : t.trimEnd.trimEnd = t.trimEnd := by
  simp [Text.trimEnd, List.dropWhile_idempotent]

namespace Key

/-- Nothing is trimmed from the text of a key. -/
theorem trimEnd_append_text (k : Key) (front : Text) :
    Text.trimEnd (front ++ k.text) = front ++ k.text := by
  obtain ⟨t, c, shape⟩ : ∃ t c, k.text = t ++ [c] := by
    rcases List.eq_nil_or_concat k.text with empty | ⟨t, c, shape⟩
    · exact absurd empty k.text_ne_nil
    · exact ⟨t, c, shape.trans (List.concat_eq_append ..)⟩
  have visible : isBlank c = false := (k.kept_text c (by simp [shape])).visible
  rw [shape, ← List.append_assoc, Text.trimEnd_append_of_not_blank _ c visible]

end Key

namespace Entry

/-! ## The last symbol -/

/-- What stands before a text makes no difference to its last symbol, if no symbol that ends with
the text takes in the character before it. -/
theorem lastSymbolLength_append {front w : Text}
    (apart : ∀ c ∈ front.getLast?, ∀ s ∈ symbols, ¬ (c :: w) <:+ s) :
    lastSymbolLength (front ++ w) = lastSymbolLength w := by
  have within (s : Text) (symbol : s ∈ symbols) : s <:+ front ++ w ↔ s <:+ w := by
    refine ⟨fun ends => ?_, fun ends => ends.trans (List.suffix_append front w)⟩
    rcases List.suffix_or_suffix_of_suffix ends (List.suffix_append front w) with
      inside | ⟨p, longer⟩
    · exact inside
    · rcases List.eq_nil_or_concat p with rfl | ⟨p, c, rfl⟩
      · exact longer ▸ List.suffix_refl w
      · rw [List.concat_eq_append] at longer
        rw [← longer] at ends
        obtain ⟨⟨u, begins⟩, -⟩ := (List.suffix_append_inj_of_length_eq rfl).1 ends
        have last : c ∈ front.getLast? := by simp [← begins]
        exact absurd ⟨p, by simp [← longer]⟩ (apart c last s symbol)
  have same : symbols.find? (fun s => (front ++ w).endsWith s) =
      symbols.find? fun s => w.endsWith s :=
    List.find?_congr fun s symbol => by
      rw [Bool.eq_iff_iff, Text.endsWith, Text.endsWith, List.isSuffixOf_iff_suffix,
        List.isSuffixOf_iff_suffix, within s symbol]
  rw [lastSymbolLength, same, lastSymbolLength]

/-- The text of a key is one symbol. -/
theorem lastSymbolLength_text (k : Key) : lastSymbolLength k.text = k.text.length := by
  have each : ∀ k ∈ Key.all, lastSymbolLength k.text = k.text.length := by decide
  exact each k k.mem_all

/-- Only what begins an operand or stands between two can go on a symbol, after a letter or a
star. -/
theorem style_of_symbol {k : Key} {c : Char} {s : Text} (symbol : s ∈ symbols)
    (ends : (c :: k.text) <:+ s) :
    k.style = .leading ∧ c.isAlpha = true ∨ k.style = .spaced ∧ c = '*' := by
  have each : (Key.all.all fun k => symbols.all fun s => !s.endsWith k.text ||
      (s.dropEnd k.text.length).getLast?.all fun c =>
        k.style == .leading && c.isAlpha || k.style == .spaced && c == '*') = true := rfl
  obtain ⟨p, rfl⟩ := ends
  have shape : p ++ c :: k.text = (p ++ [c]) ++ k.text := by simp
  have ending : Text.endsWith (p ++ c :: k.text) k.text = true :=
    List.isSuffixOf_iff_suffix.2 (shape ▸ List.suffix_append _ _)
  have holds := List.all_eq_true.1 (List.all_eq_true.1 each k k.mem_all) _ symbol
  rw [ending, shape, Text.dropEnd_append] at holds
  simpa using holds

/-! ## Keys and deletions on top of an entry -/

variable {t entry other : Text} {k : Key} {keys : List Key}

/-- What a key leaves is its text on top of what was there, but for white space. -/
theorem exists_front (k : Key) (entry : Text) :
    ∃ front, (press k entry).trimEnd = front ++ k.text ∧ front.trimEnd = entry.trimEnd ∧
      ∀ c ∈ front.getLast?,
        (k.style = .leading → c.isAlpha = false) ∧ (k.style = .spaced → c ≠ '*') := by
  unfold press insert
  cases style : k.style with
  | bare => exact ⟨entry, k.trimEnd_append_text entry, rfl, fun _ _ => ⟨nofun, nofun⟩⟩
  | attached =>
      exact ⟨entry.trimEnd, k.trimEnd_append_text _, Text.trimEnd_trimEnd entry,
        fun _ _ => ⟨nofun, nofun⟩⟩
  | spaced =>
      simp only
      refine ⟨if entry.trimEnd.isEmpty then [] else entry.trimEnd ++ [' '], ?_, ?_, ?_⟩
      · rw [Text.trimEnd_append_blank _ ' ' rfl, k.trimEnd_append_text]
      · split
        · rename_i empty
          rw [List.isEmpty_iff.1 empty, Text.trimEnd_nil]
        · rw [Text.trimEnd_append_blank _ ' ' rfl, Text.trimEnd_trimEnd]
      · split
        · exact nofun
        · simp
  | leading =>
      simp only
      refine ⟨if needsSpace entry then entry ++ [' '] else entry, k.trimEnd_append_text _, ?_, ?_⟩
      · split
        · rw [Text.trimEnd_append_blank _ ' ' rfl]
        · rfl
      · split
        · simp
        · rename_i bare
          intro c last
          refine ⟨fun _ => ?_, nofun⟩
          obtain ⟨before, rfl⟩ := List.getLast?_eq_some_iff.1 last
          by_contra letter
          rw [Bool.not_eq_false] at letter
          have visible := isBlank_eq_false_of_isAlpha letter
          simp [needsSpace, visible, endsOperand, letter] at bare

/-- An entry holds the texts of keys, the latest first, on top of a text: each is a symbol by
itself, and what stands before it holds the others. -/
def Holds (t : Text) : List Key → Text → Prop
  | [], entry => entry.trimEnd = t.trimEnd
  | k :: keys, entry =>
    ∃ front, entry.trimEnd = front ++ k.text ∧
      lastSymbolLength (front ++ k.text) = k.text.length ∧ Holds t keys front

namespace Holds

/-- White space at the end is nothing to what an entry holds. -/
theorem congr (holds : Holds t keys entry) (same : other.trimEnd = entry.trimEnd) :
    Holds t keys other := by
  cases keys with
  | nil => exact same.trans holds
  | cons k keys =>
      obtain ⟨front, whole, symbol, below⟩ := holds
      exact ⟨front, same.trans whole, symbol, below⟩

theorem press (holds : Holds t keys entry) (k : Key) : Holds t (k :: keys) (press k entry) := by
  obtain ⟨front, whole, below, apart⟩ := exists_front k entry
  refine ⟨front, whole, ?_, holds.congr below⟩
  rw [lastSymbolLength_append, lastSymbolLength_text]
  intro c last s symbol ends
  obtain ⟨noLetter, noStar⟩ := apart c last
  rcases style_of_symbol symbol ends with ⟨leads, letter⟩ | ⟨spaced, star⟩
  · rw [noLetter leads] at letter
    cases letter
  · exact noStar spaced star

/-- **A deletion takes the latest text away**, and no other character that can be seen. -/
theorem delete (holds : Holds t (k :: keys) entry) : Holds t keys (delete entry) := by
  obtain ⟨front, whole, symbol, below⟩ := holds
  have deleted : Entry.delete entry = front.trimEnd := by
    simp only [Entry.delete]
    rw [whole, symbol, Text.dropEnd_append]
  rw [deleted]
  exact below.congr (Text.trimEnd_trimEnd front)

theorem withoutBlanks (holds : Holds t keys entry) :
    entry.withoutBlanks = t.withoutBlanks ++ Key.texts keys.reverse := by
  induction keys generalizing entry with
  | nil =>
      rw [← Text.withoutBlanks_trimEnd entry, show entry.trimEnd = t.trimEnd from holds,
        Text.withoutBlanks_trimEnd]
      exact (List.append_nil _).symm
  | cons k keys ih =>
      obtain ⟨front, whole, -, below⟩ := holds
      have seen : k.text.withoutBlanks = k.text :=
        List.filter_eq_self.2 fun c member => by simp [(k.kept_text c member).visible]
      rw [← Text.withoutBlanks_trimEnd entry, whole, Text.withoutBlanks_append, ih below, seen]
      simp [Key.texts]

end Holds

theorem delete_press (k : Key) (entry : Text) : delete (press k entry) = entry.trimEnd := by
  have nothing : Holds entry [] entry := rfl
  have emptied : (delete (press k entry)).trimEnd = entry.trimEnd := (nothing.press k).delete
  rwa [delete, Text.trimEnd_trimEnd] at emptied

/-- A change to an entry by a key or by a deletion. -/
inductive Edit where
  | press (k : Key)
  | delete
  deriving DecidableEq

namespace Edit

/-- What is done to the application. -/
def action : Edit → Session.Action
  | press k => .press k
  | delete => .delete

/-- Whether a text is inserted. -/
def inserts : Edit → Bool
  | press _ => true
  | delete => false

/-- Whether a text is deleted. -/
def deletes : Edit → Bool
  | press _ => false
  | delete => true

end Edit

/-- The keys whose texts are still there after edits, the latest first: a deletion takes the latest
away. -/
def remaining (edits : List Edit) : List Key :=
  edits.foldl (fun keys edit =>
    match edit with
    | .press k => k :: keys
    | .delete => keys.tail) []

/-- At no moment more has been deleted than inserted. -/
def Permitted (edits : List Edit) : Prop :=
  ∀ before, before <+: edits → before.countP Edit.deletes ≤ before.countP Edit.inserts

instance (edits : List Edit) : Decidable (Permitted edits) :=
  decidable_of_iff
    (∀ before ∈ edits.inits, before.countP Edit.deletes ≤ before.countP Edit.inserts)
    (by simp only [Permitted, List.mem_inits])

/-! ## A run of edits -/

theorem remaining_press (edits : List Edit) (k : Key) :
    remaining (edits ++ [.press k]) = k :: remaining edits := by
  simp [remaining]

theorem remaining_delete (edits : List Edit) :
    remaining (edits ++ [.delete]) = (remaining edits).tail := by
  simp [remaining]

theorem Permitted.of_append {edits more : List Edit} (permitted : Permitted (edits ++ more)) :
    Permitted edits :=
  fun before begins => permitted before (begins.trans (List.prefix_append edits more))

/-- What is inserted and not deleted is still there. -/
theorem length_remaining {edits : List Edit} (permitted : Permitted edits) :
    (remaining edits).length + edits.countP Edit.deletes = edits.countP Edit.inserts := by
  induction edits using List.reverseRecOn with
  | nil => rfl
  | append_singleton edits edit ih =>
      have counted := ih permitted.of_append
      have allowed := permitted _ (List.prefix_refl _)
      rw [List.countP_append, List.countP_append] at allowed ⊢
      cases edit with
      | press k =>
          have inserted : [Edit.press k].countP Edit.inserts = 1 := rfl
          have nothing : [Edit.press k].countP Edit.deletes = 0 := rfl
          rw [remaining_press, List.length_cons]
          omega
      | delete =>
          have nothing : [Edit.delete].countP Edit.inserts = 0 := rfl
          have deleted : [Edit.delete].countP Edit.deletes = 1 := rfl
          rw [remaining_delete, List.length_tail]
          omega

/-- A deletion that is permitted finds a text to take away. -/
theorem Permitted.remaining_ne_nil {edits : List Edit}
    (permitted : Permitted (edits ++ [.delete])) : remaining edits ≠ [] := by
  intro empty
  have counted := length_remaining permitted.of_append
  have allowed := permitted _ (List.prefix_refl _)
  have nothing : [Edit.delete].countP Edit.inserts = 0 := rfl
  have deleted : [Edit.delete].countP Edit.deletes = 1 := rfl
  rw [empty, List.length_nil] at counted
  rw [List.countP_append, List.countP_append] at allowed
  omega

/-- **Edits leave what they have not deleted**, on top of the first entry. -/
theorem holds_run (lib : Elementary) (s : Session.State) {edits : List Edit}
    (permitted : Permitted edits) :
    Holds s.entry (remaining edits) (Session.run lib s (edits.map Edit.action)).entry := by
  induction edits using List.reverseRecOn with
  | nil => exact rfl
  | append_singleton edits edit ih =>
      have holds := ih permitted.of_append
      rw [List.map_append, List.map_singleton, Session.run_concat]
      cases edit with
      | press k =>
          rw [remaining_press]
          exact holds.press k
      | delete =>
          obtain ⟨k, keys, kept⟩ := List.exists_cons_of_ne_nil permitted.remaining_ne_nil
          rw [kept] at holds
          rw [remaining_delete, kept]
          exact holds.delete

/-- **Editing on the keypad is a stack of symbols**, but for white space.  Whatever entry keys and
deletions begin with, no more being deleted at any moment than was inserted, it is there at the end
with the texts of the keys that are not deleted, each whole and in order.  Right after any key a
deletion leaves the entry as it was without the white space at its end. -/
theorem withoutBlanks_run_edits (lib : Elementary) (s : Session.State) (edits : List Edit)
    (permitted : Permitted edits) :
    (Session.run lib s (edits.map Edit.action)).entry.withoutBlanks =
        s.entry.withoutBlanks ++ Key.texts (remaining edits).reverse ∧
      ∀ (k : Key) (entry : Text), delete (press k entry) = entry.trimEnd :=
  ⟨(holds_run lib s permitted).withoutBlanks, delete_press⟩

/-- On top of `a*`, which was typed, a `×` is not deleted as half of `**`, nor the parenthesis after
`sin(` with anything before it. -/
theorem withoutBlanks_run_edits_typed :
    let s : Session.State := { entry := "a*" }
    let edits : List Edit := [.press (.operator .mul), .delete, .press (.function .sin),
      .press .openGroup, .delete, .press (.constant .pi)]
    Permitted edits ∧
      (Session.run .machine s (edits.map Edit.action)).entry.withoutBlanks =
        "a*sin(pi".toList := by
  intro s edits
  have permitted : Permitted edits := by decide
  exact ⟨permitted, (withoutBlanks_run_edits .machine s edits permitted).1⟩

end Entry

end SciCalc
