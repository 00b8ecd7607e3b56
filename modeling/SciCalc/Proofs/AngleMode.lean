/-
# SciCalc.Proofs.AngleMode -- the unit of angles is seen by trigonometric calls only

Two settings that differ in the unit of angles alone are compared on one entry.
Nothing up to the tree looks at the unit, so both refuse the entry with one fault,
or both read it the same way and write the same record but for the note that
names the unit.

Past that point the unit goes into every call, and only the six trigonometric
functions make something of it.  A tree without them has the same value or the
same fault in either unit, names around the fault included
(`Expr.value_eq_of_modeFree`, by induction on the tree), and so has its entry
(`Settings.evaluate_of_same_limits`).
-/
import SciCalc.Proofs.Working

namespace SciCalc

set_option autoImplicit false

/-- **A tree without trigonometric calls** has one value, or one fault, in all units of angles. -/
theorem Expr.value_eq_of_modeFree (lib : Elementary) (mode mode' : AngleMode) (e : Expr)
    (free : e.modeFree = true) : e.value lib mode = e.value lib mode' := by
  induction e with
  | number v => rfl
  | negate x ih => simp only [value, ih free]
  | factorial x ih => simp only [value, ih free]
  | call f x ih =>
      rw [modeFree, Bool.and_eq_true, Bool.not_eq_true'] at free
      have applied : f.apply lib mode = f.apply lib mode' :=
        funext fun v => f.apply_mode lib mode mode' v free.1
      simp only [value, ih free.2, applied]
  | binary o a b iha ihb =>
      rw [modeFree, Bool.and_eq_true] at free
      simp only [value, iha free.1, ihb free.2]

namespace Settings

/-- No stage up to the tree looks at the unit of angles. -/
theorem read_setMode (s : Settings) (mode : AngleMode) (entry : Text) :
    (s.setMode mode).read entry = s.read entry := rfl

/-- A fault before the tree is the fault of the evaluation. -/
theorem evaluate_of_read_error {lib : Elementary} {s : Settings} {entry : Text} {fault : Fault}
    (failed : s.read entry = .error fault) : s.evaluate lib entry = .error fault := by
  rw [evaluate, failed]
  rfl

/-- Once an entry is read its value is that of its tree. -/
theorem valueOf_of_read {lib : Elementary} {s : Settings} {entry : Text} {r : Reading}
    (done : s.read entry = .ok r) : s.valueOf lib entry = r.tree.value lib s.mode := by
  rw [valueOf, evaluate, done]
  show (r.tree.value lib s.mode >>= fun v => _).map _ = _
  cases r.tree.value lib s.mode <;> rfl

/-- **The unit of angles is seen by trigonometric calls only.**  Under settings that differ in the
unit alone an entry is refused with one fault before anything is evaluated, or it is read the same
way and the two records differ in their notes at most; and if its tree calls no trigonometric
function, it has the same value or the same fault under both. -/
theorem evaluate_of_same_limits (lib : Elementary) (s s' : Settings)
    (same : s' = s.setMode s'.mode) (entry : Text) :
    (∃ fault, s.read entry = .error fault ∧ s'.read entry = .error fault ∧
        s.evaluate lib entry = .error fault ∧ s'.evaluate lib entry = .error fault) ∨
      ∃ r, s.read entry = .ok r ∧ s'.read entry = .ok r ∧
        (∀ v w, s.evaluate lib entry = .ok (v, w) → w = r.working s.mode) ∧
        (∀ v w, s'.evaluate lib entry = .ok (v, w) →
          w = { r.working s.mode with note := Working.noteFor s'.mode }) ∧
        (r.tree.modeFree = true → s'.valueOf lib entry = s.valueOf lib entry) := by
  have readings : s'.read entry = s.read entry := by rw [same, read_setMode]
  cases read : s.read entry with
  | error fault =>
      rw [read] at readings
      exact .inl ⟨fault, rfl, readings, evaluate_of_read_error read,
        evaluate_of_read_error readings⟩
  | ok r =>
      rw [read] at readings
      refine .inr ⟨r, rfl, readings, fun v w done => ?_, fun v w done => ?_, fun free => ?_⟩
      · obtain ⟨r', read', -, rfl⟩ := evaluate_eq_ok_iff.1 done
        rw [Except.ok.inj (read.symm.trans read')]
      · obtain ⟨r', read', -, rfl⟩ := evaluate_eq_ok_iff.1 done
        rw [Except.ok.inj (readings.symm.trans read')]
        rfl
      · rw [valueOf_of_read read, valueOf_of_read readings]
        exact r.tree.value_eq_of_modeFree lib s'.mode s.mode free

/-- In degrees and in radians `√4+sqrt(1/0)` divides by zero inside a root. -/
theorem evaluate_of_same_limits_root :
    let degrees : Settings := {}
    let radians : Settings := { mode := .radians }
    let fault : Fault := .within "sqrt" .divisionByZero
    radians = degrees.setMode .radians ∧
      degrees.valueOf .machine "√4+sqrt(1/0)" = .error fault ∧
      radians.valueOf .machine "√4+sqrt(1/0)" = .error fault := by
  intro degrees radians fault
  have failed : degrees.valueOf .machine "√4+sqrt(1/0)" = .error fault := by decide +kernel
  have readable : ∃ r, degrees.read "√4+sqrt(1/0)" = .ok r ∧ r.tree.modeFree = true :=
    ⟨_, rfl, rfl⟩
  obtain ⟨r, read, free⟩ := readable
  rcases evaluate_of_same_limits .machine degrees radians rfl "√4+sqrt(1/0)" with
    ⟨other, refused, -⟩ | ⟨r', read', -, -, -, equal⟩
  · rw [read] at refused
    cases refused
  · obtain rfl := Except.ok.inj (read.symm.trans read')
    exact ⟨rfl, failed, (equal free).trans failed⟩

end Settings

end SciCalc
