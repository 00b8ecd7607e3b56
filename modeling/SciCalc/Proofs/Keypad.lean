/-
# SciCalc.Proofs.Keypad -- operands side by side on the keypad

Only the white space around the text of a key depends on what the entry held
(`Entry.withoutBlanks_typed`), and white space is nothing to the normal form.  So
the keys of two operands, one after the other, write the texts of the operands
side by side, and what begins an operand there is a word or a parenthesis: the
star between the two need not be written (`Spells.normalize_append`), if the texts
are cut apart.

They are not where a word follows a word.  The space that the keypad puts between
them is dropped before the words are cut, the letters become one word, and no name
has such letters in it (`Spells.name_of_letters`).  That happens after a constant
alone (`Key.fuse`), since a function brings its parenthesis.  `Entry.typed_append`
puts both together; `π` and then `e` is the case where the star is missed.
-/
import SciCalc.Proofs.Composition
import SciCalc.Session

namespace SciCalc

set_option autoImplicit false

open Piece Lexeme

/-! ## Texts side by side -/

/-- An entry is cut where no word and no numeral goes on. -/
theorem Piece.cut_append {t u : Text}
    (words : ∀ a ∈ (t.withoutBlanks.map plainSign).getLast?,
      ∀ b ∈ (u.withoutBlanks.map plainSign).head?, a.isAlpha = true → b.isAlpha = false)
    (numerals : ∀ a ∈ (t.withoutBlanks.map plainSign).getLast?,
      ∀ b ∈ (u.withoutBlanks.map plainSign).head?,
        Decimal.isNumeral a = true → Decimal.isNumeral b = false) :
    cut (t ++ u) = cut t ++ cut u := by
  rw [cut, Text.withoutBlanks_append, List.map_append, split_append words numerals,
    List.flatMap_append]
  rfl

/-- The names of the constants and of the functions. -/
def knownNames : List Text := ["pi".toList, ['π'], ['e']] ++ Func.all.map Func.name

theorem mem_knownNames_of_ofWord? {w : Text} {k : Constant} (named : Constant.ofWord? w = some k) :
    w ∈ knownNames := by
  unfold Constant.ofWord? at named
  split at named
  · rename_i isPi
    rcases isPi with rfl | rfl <;> simp [knownNames]
  · split at named
    · rename_i isEuler
      simp [knownNames, isEuler]
    · cases named

theorem Func.name_mem_knownNames (f : Func) : f.name ∈ knownNames := by
  cases f <;> decide

/-- **Letters side by side in an entry that is read**, white space left out, lie in one name. -/
theorem Spells.name_of_letters {t u w v : Text} {d : Phrase .sum} (spells : Spells t d)
    (shown : t.withoutBlanks.map plainSign = u ++ (w ++ v)) (some : w ≠ [])
    (letters : ∀ c ∈ w, c.isAlpha = true) : ∃ name ∈ knownNames, w.map Char.toLower <:+: name := by
  obtain ⟨before, l, r, rest, whole, -⟩ := split_around some letters u v
  have member : Lexeme.word (l ++ (w ++ r)) ∈ split (u ++ (w ++ v)) := by simp [whole]
  have drawn := drawn_of_mem_split member
  generalize grown : (l ++ (w ++ r)).map Char.toLower = x
  have inside : w.map Char.toLower <:+: x :=
    ⟨l.map Char.toLower, r.map Char.toLower, by simp [← grown]⟩
  cases named : Constant.ofWord? x with
  | some k => exact ⟨x, mem_knownNames_of_ofWord? named, inside⟩
  | none =>
      -- the word is written as it is, and read again
      have cuts : Piece.word x ∈ cut t := by
        rw [cut, shown]
        exact List.mem_flatMap.2 ⟨_, member, by simp [ofLexeme, grown]⟩
      have kept := mem_wrapFrom (by simp : Piece.word x ≠ root) cuts .plain {}
      obtain ⟨u', v', written⟩ := exists_write_mem kept
      rw [text_word_of_none named] at written
      have done : Token.read (u' ++ (x ++ v')) = .ok d.tokens := written ▸ spells
      have small : x.map Char.toLower = x := by
        rw [← grown, List.map_map]
        exact List.map_congr_left fun c _ => Char.toLower_toLower_eq_toLower c
      have letters' : ∀ c ∈ x, c.isAlpha = true :=
        grown ▸ isAlpha_of_mem_map_toLower fun c among => (drawn.2 c among).2
      have some' : x ≠ [] := by simpa [← grown] using drawn.1
      obtain ⟨f, l', r', -, -, name, -⟩ := d.name_of_letters some' letters' done
      have within : x <:+: f.name :=
        ⟨l'.map Char.toLower, r'.map Char.toLower, by simp [name, small]⟩
      exact ⟨f.name, f.name_mem_knownNames, inside.trans within⟩

/-! ## Keys one after another -/

namespace Key

/-- Whether the text of a key is a constant. -/
def isConstant : Key → Bool
  | constant _ => true
  | _ => false

/-- Whether the text of a key begins with a word. -/
def isWord : Key → Bool
  | constant _ => true
  | function _ => true
  | _ => false

/-- Whether keys after others put a word right behind a word. -/
def fuse (p q : List Key) : Bool := p.getLast?.any isConstant && q.head?.any isWord

/-- The texts of keys one after another. -/
def texts (keys : List Key) : Text := keys.flatMap text

/-- The word that the text of a key begins with. -/
def word (k : Key) : Text := k.text.takeWhile Char.isAlpha

theorem mem_all (k : Key) : k ∈ all := by
  cases k with
  | digit d => simp [all]
  | operator o => cases o <;> simp [all]
  | constant k => cases k <;> simp [all]
  | function f => cases f <;> simp [all, Func.all]
  | _ => simp [all]

/-- The text of a key is made of small ASCII characters that can be seen. -/
theorem kept_text (k : Key) : ∀ c ∈ k.text, Kept c := by
  have ascii : (all.all fun k => k.text.all fun c =>
      0x21 ≤ c.toNat && c.toNat < 0x80 && c.toLower == c) = true := rfl
  intro c member
  have holds := List.all_eq_true.1 (List.all_eq_true.1 ascii k k.mem_all) c member
  simp only [Bool.and_eq_true, decide_eq_true_eq, beq_iff_eq] at holds
  exact kept_of_ascii holds.1.1 holds.1.2 holds.2

theorem kept_texts (keys : List Key) : ∀ c ∈ texts keys, Kept c := by
  intro c member
  obtain ⟨k, -, among⟩ := List.mem_flatMap.1 member
  exact k.kept_text c among

/-- Only a constant ends with a letter. -/
theorem any_isAlpha_getLast? (k : Key) : k.text.getLast?.any Char.isAlpha = k.isConstant := by
  have each : ∀ k ∈ all, k.text.getLast?.any Char.isAlpha = k.isConstant := by decide
  exact each k k.mem_all

/-- Only a constant or a function begins with a letter. -/
theorem any_isAlpha_head? (k : Key) : k.text.head?.any Char.isAlpha = k.isWord := by
  have each : ∀ k ∈ all, k.text.head?.any Char.isAlpha = k.isWord := by decide
  exact each k k.mem_all

@[simp] theorem texts_append (p q : List Key) : texts (p ++ q) = texts p ++ texts q :=
  List.flatMap_append

theorem getLast?_texts (keys : List Key) (k : Key) :
    (texts (keys ++ [k])).getLast? = k.text.getLast? := by
  rw [texts, List.flatMap_append, List.flatMap_cons, List.flatMap_nil, List.append_nil,
    List.getLast?_append_of_ne_nil _ k.text_ne_nil]

theorem head?_texts (k : Key) (keys : List Key) : (texts (k :: keys)).head? = k.text.head? := by
  rw [texts, List.flatMap_cons, List.head?_append_of_ne_nil _ k.text_ne_nil]

theorem openGroup_or_isWord {k : Key} (leads : k.style = .leading) :
    k = openGroup ∨ k.isWord = true := by
  cases k <;> first | exact .inl rfl | exact .inr rfl | cases leads

/-- What begins an operand begins with a word or a parenthesis. -/
theorem cut_texts_of_leading {k : Key} (leads : k.style = .leading) (keys : List Key) :
    ∃ p rest, cut (texts (k :: keys)) = p :: rest ∧ (p = opening ∨ p.isWord = true) := by
  rcases openGroup_or_isWord leads with rfl | isWord
  · exact ⟨opening, cut (texts keys), cut_cons rfl rfl (texts keys), .inl rfl⟩
  · obtain ⟨c, v, begins⟩ := List.exists_cons_of_ne_nil k.text_ne_nil
    have letter : c.isAlpha = true := by
      rw [← any_isAlpha_head?, begins] at isWord
      exact isWord
    have whole : texts (k :: keys) = [c] ++ (v ++ texts keys) := by simp [texts, begins]
    obtain ⟨r, rest, found, -⟩ :=
      split_letters (List.cons_ne_nil c []) (by simpa using letter) (v ++ texts keys)
    refine ⟨.word (([c] ++ r).map Char.toLower), rest.flatMap ofLexeme, ?_, .inr rfl⟩
    rw [cut, shown_of_kept (kept_texts _), whole, found, List.flatMap_cons]
    rfl

/-- **The texts of keys are cut apart** before what begins an operand, unless word meets word. -/
theorem cut_texts_append {p q : List Key} {k : Key} (leads : k.style = .leading)
    (apart : fuse p (k :: q) = false) :
    cut (texts p ++ texts (k :: q)) = cut (texts p) ++ cut (texts (k :: q)) := by
  have begins {b : Char} (first : (texts (k :: q)).head? = some b) :
      b = '(' ∧ k.isWord = false ∨ b.isAlpha = true ∧ k.isWord = true := by
    rw [head?_texts] at first
    rcases openGroup_or_isWord leads with rfl | isWord
    · exact .inl ⟨(Option.some.inj first).symm, rfl⟩
    · have letter := k.any_isAlpha_head?
      rw [first, isWord] at letter
      exact .inr ⟨letter, isWord⟩
  apply cut_append
  · rw [shown_of_kept (kept_texts p), shown_of_kept (kept_texts _)]
    intro a last b first letter
    rcases begins first with ⟨rfl, -⟩ | ⟨-, isWord⟩
    · rfl
    · -- only a constant could end with a letter
      rcases List.eq_nil_or_concat p with rfl | ⟨p, k', rfl⟩
      · cases last
      · rw [List.concat_eq_append] at apart last
        rw [getLast?_texts] at last
        have isConstant := k'.any_isAlpha_getLast?
        rw [last, Option.any_some, letter] at isConstant
        simp [fuse, isWord, ← isConstant] at apart
  · rw [shown_of_kept (kept_texts p), shown_of_kept (kept_texts _)]
    intro a _ b first _
    rcases begins first with ⟨rfl, -⟩ | ⟨letter, -⟩
    · rfl
    · by_contra digit
      rw [isAlpha_eq_false_of_isNumeral (by simpa using digit)] at letter
      cases letter

/-- **No name has a constant and a word after it in it.** -/
theorem not_infix_knownNames (c : Constant) {k : Key} (isWord : k.isWord = true) :
    ∀ name ∈ knownNames, ¬ (constant c).text ++ k.word <:+: name := by
  cases k with
  | constant k => cases c <;> cases k <;> decide
  | function f => cases c <;> cases f <;> decide
  | _ => cases isWord

/-- The text of a key is the word that it begins with and what follows. -/
theorem exists_text_eq (k : Key) : ∃ rest, k.text = k.word ++ rest :=
  ⟨k.text.dropWhile Char.isAlpha, List.takeWhile_append_dropWhile.symm⟩

/-- **Where a word meets a word nothing is read.** -/
theorem not_spells_of_fuse {p q : List Key} (meet : fuse p q = true) (d : Phrase .sum) :
    ¬ Spells (texts (p ++ q)) d := by
  intro spells
  obtain ⟨constantLast, wordFirst⟩ := Bool.and_eq_true_iff.1 meet
  obtain ⟨k', last, isConstant⟩ := (Option.any_eq_true _ _).1 constantLast
  obtain ⟨k, first, isWord⟩ := (Option.any_eq_true _ _).1 wordFirst
  obtain ⟨p, rfl⟩ := List.getLast?_eq_some_iff.1 last
  obtain ⟨q, rfl⟩ := List.head?_eq_some_iff.1 first
  cases k' with
  | constant c =>
      have kept := kept_texts (p ++ [constant c] ++ k :: q)
      obtain ⟨rest, begins⟩ := k.exists_text_eq
      have shape : texts (p ++ [constant c] ++ k :: q) =
          texts p ++ ((constant c).text ++ k.word ++ (rest ++ texts q)) := by
        simp [texts, begins]
      have letters : ∀ x ∈ (constant c).text ++ k.word, x.isAlpha = true := by
        refine List.forall_mem_append.2 ⟨List.all_eq_true.1 ?_, fun x => List.mem_takeWhile_imp⟩
        cases c <;> rfl
      have small : ((constant c).text ++ k.word).map Char.toLower = (constant c).text ++ k.word :=
        map_toLower_of_kept fun x member => kept x
          (shape ▸ List.mem_append_right _ (List.mem_append_left _ member))
      obtain ⟨name, known, inside⟩ := spells.name_of_letters
        ((shown_of_kept kept).trans shape) (by simp [(constant c).text_ne_nil]) letters
      rw [small] at inside
      exact not_infix_knownNames c isWord name known inside
  | _ => cases isConstant

end Key

namespace Entry

/-- What keys write into an empty entry. -/
def typed (keys : List Key) : Text := keys.foldl (fun entry k => press k entry) []

/-- Keys pressed where nothing has been entered write this. -/
theorem run_press (lib : Elementary) (s : Session.State) (empty : s.entry = []) (keys : List Key) :
    (Session.run lib s (keys.map .press)).entry = typed keys := by
  have presses (s : Session.State) : (Session.run lib s (keys.map .press)).entry =
      keys.foldl (fun entry k => press k entry) s.entry := by
    induction keys generalizing s with
    | nil => rfl
    | cons k keys ih => exact ih (s.press k)
  rw [presses, empty, typed]

/-- **A key writes its text**, but for white space. -/
theorem withoutBlanks_press (k : Key) (entry : Text) :
    (press k entry).withoutBlanks = entry.withoutBlanks ++ k.text.withoutBlanks := by
  have space (t : Text) : Text.withoutBlanks (' ' :: t) = t.withoutBlanks := rfl
  have nothing : Text.withoutBlanks [] = [] := rfl
  unfold press insert
  cases k.style with
  | bare => simp
  | attached => simp [Text.withoutBlanks_trimEnd]
  | spaced =>
      have kept := entry.withoutBlanks_trimEnd
      simp only
      split
      · rename_i empty
        rw [List.isEmpty_iff.1 empty] at kept
        simp [space, nothing, ← kept]
      · simp [space, nothing, kept]
  | leading =>
      simp only
      split <;> simp [space]

theorem withoutBlanks_typed (keys : List Key) :
    (typed keys).withoutBlanks = (Key.texts keys).withoutBlanks := by
  induction keys using List.reverseRecOn with
  | nil => rfl
  | append_singleton keys k ih =>
      have last : typed (keys ++ [k]) = press k (typed keys) := by simp [typed]
      rw [last, withoutBlanks_press, ih]
      simp [Key.texts]

theorem normalize_typed (keys : List Key) :
    normalize (typed keys) = normalize (Key.texts keys) := by
  rw [normalize, cut_congr (withoutBlanks_typed keys)]
  rfl

theorem spells_typed {keys : List Key} {d : Phrase .sum} :
    Spells (typed keys) d ↔ Spells (Key.texts keys) d := by
  rw [Spells, Spells, normalize_typed]

/-- **Operands side by side on the keypad are factors**, but for words.  Where keys write an entry
that is read and so do other keys, which begin an operand, an entry that is read is written with the
sign of the product between them too.  Without the sign nothing changes from the normal form on,
unless a constant comes right before a word: then nothing is read at all. -/
theorem typed_append {p q : List Key} {a b : Expr} (first : ReadsAs (typed p) a)
    (second : ReadsAs (typed q) b) (leads : ∃ k ∈ q.head?, k.style = .leading) :
    (∃ e, ReadsAs (typed (p ++ .operator .mul :: q)) e) ∧
      (Key.fuse p q = false →
        normalize (typed (p ++ q)) = normalize (typed (p ++ .operator .mul :: q)) ∧
          ∀ s : Settings, s.read (typed (p ++ q)) = s.read (typed (p ++ .operator .mul :: q))) ∧
      (Key.fuse p q = true → ∀ (s : Settings) (r : Reading), s.read (typed (p ++ q)) ≠ .ok r) := by
  obtain ⟨-, x, left, -⟩ := first.spellsTree
  obtain ⟨-, y, right, -⟩ := second.spellsTree
  obtain ⟨k, begins, leads⟩ := leads
  obtain ⟨q, rfl⟩ := List.head?_eq_some_iff.1 begins
  rw [spells_typed] at left right
  have product :
      Key.texts (p ++ .operator .mul :: k :: q) = Key.texts p ++ '*' :: Key.texts (k :: q) := by
    simp [Key.texts, Key.text, Operator.sign]
  refine ⟨?_, ?_, ?_⟩
  · obtain ⟨z, joined, -⟩ := left.exists_join (o := .mul) (a := '*') rfl rfl right
    rw [← product, ← spells_typed] at joined
    exact ⟨z.tree, SpellsTree.readsAs ⟨z, joined, rfl, Nat.le_refl _⟩⟩
  · intro apart
    have cuts := Key.cut_texts_append leads apart
    obtain ⟨f, rest, begins, kind⟩ := Key.cut_texts_of_leading leads q
    have same : normalize (typed (p ++ k :: q)) =
        normalize (typed (p ++ .operator .mul :: k :: q)) := by
      rw [normalize_typed, normalize_typed, product, Key.texts_append]
      exact left.normalize_append right cuts begins kind
    exact ⟨same, fun s => by simp only [Settings.read, same]⟩
  · intro meet s r done
    obtain ⟨d, spells, -⟩ := Settings.exists_phrase_of_read done
    exact Key.not_spells_of_fuse meet d (spells_typed.1 spells)

/-- After `3!` the keys of `sin(30)` multiply. -/
theorem typed_append_factorial :
    let p : List Key := [.digit 3, .factorial]
    let q : List Key := [.function .sin, .digit 3, .digit 0, .closeGroup]
    let tree : Expr := .binary .mul (.factorial (.number 3)) (.call .sin (.number 30))
    typed (p ++ q) = "3! sin(30)".toList ∧ normalize (typed (p ++ q)) = "3!*sin(30)".toList ∧
      (Settings.read {} (typed (p ++ q))).map Reading.tree = .ok tree := by
  intro p q tree
  have first : ReadsAs (typed p) (.factorial (.number 3)) := readsAs_of_read (s := {}) rfl
  have second : ReadsAs (typed q) (.call .sin (.number 30)) := readsAs_of_read (s := {}) rfl
  obtain ⟨-, apart, -⟩ := typed_append first second ⟨.function .sin, rfl, rfl⟩
  obtain ⟨normal, read⟩ := apart rfl
  refine ⟨rfl, ?_, ?_⟩
  · rw [normal]
    rfl
  · rw [read]
    rfl

/-- After `π` the key of `e` does not multiply, though either is read and so is their product. -/
theorem typed_append_constants :
    let p : List Key := [.constant .pi]
    let q : List Key := [.constant .euler]
    let a : Expr := .number 3.141592653589793
    let b : Expr := .number 2.718281828459045
    (ReadsAs (typed p) a ∧ ReadsAs (typed q) b ∧ ∃ k ∈ q.head?, k.style = .leading) ∧
      ReadsAs (typed (p ++ .operator .mul :: q)) (.binary .mul a b) ∧
      typed (p ++ q) = "pi e".toList ∧
      Settings.read {} (typed (p ++ q)) = .error (.unsupported (.identifier "pie")) := by
  intro p q a b
  have first : ReadsAs (typed p) a := readsAs_of_read (s := {}) rfl
  have second : ReadsAs (typed q) b := readsAs_of_read (s := {}) rfl
  have product : ReadsAs (typed (p ++ .operator .mul :: q)) (.binary .mul a b) :=
    readsAs_of_read (s := {}) rfl
  exact ⟨⟨first, second, .constant .euler, rfl, rfl⟩, product, rfl, rfl⟩

end Entry

end SciCalc
