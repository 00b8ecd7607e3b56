/-
# SciCalc.Proofs.Session.Panel -- the panel of direct operations and the infinities

An operation of the panel on finite numbers gives a finite double or a fault, for
the guards of the operations leave no gap (`Direct.yieldsFinite_applyOperator`,
`Direct.yieldsFinite_applyFunction`); what is asked of the elementary functions for
this is `Elementary.KeepsRanges`.  So the panel shows a number or the message of a
fault.

The conversion of an angle from radians to degrees has no guard.  It is finite as
long as the exact product is below the middle between the greatest double and the
next power of two, and from there on the panel shows an infinity
(`AngleMode.isFinite_degreesOfRadians_iff`, `Session.panel_output_spec`).
With the numbers that are entered below that limit it never does, whatever else is
done (`Session.run_panel`).
-/
import Mathlib
import SciCalc.Proofs.Binary64.Results
import SciCalc.Proofs.Display
import SciCalc.Proofs.Finiteness
import SciCalc.Proofs.Session.Steps

namespace SciCalc

set_option autoImplicit false

open Binary64

/-! ## Angles in degrees -/

namespace AngleMode

variable {v : Float}

/-- Degrees in a radian, as a double. -/
def degreesInRadian : Float := 180.0 / Binary64.pi

theorem degreesInRadian_spec :
    degreesInRadian.isFinite = true ∧ 0 < toRat degreesInRadian ∧ toRat degreesInRadian < 64 := by
  have parts : degreesInRadian.isFinite = true ∧ isNegative degreesInRadian = false ∧
      significand degreesInRadian ≠ 0 ∧ exponent degreesInRadian = -47 := by decide +kernel
  obtain ⟨finite, positive, some, power⟩ := parts
  have short : (significand degreesInRadian : ℚ) < 2 ^ 53 := by
    exact_mod_cast (canonical degreesInRadian).short
  have value : toRat degreesInRadian = magnitude degreesInRadian := by
    rw [toRat, positive, if_neg Bool.false_ne_true]
  rw [value]
  refine ⟨finite, magnitude_pos some, ?_⟩
  rw [magnitude_eq, power]
  calc (significand degreesInRadian : ℚ) * 2 ^ (-47 : Int) < 2 ^ 53 * 2 ^ (-47 : Int) :=
        mul_lt_mul_of_pos_right short (by positivity)
    _ = 64 := by norm_num

/-- **An angle in degrees is finite** as long as the exact product is not too large for a double. -/
theorem isFinite_degreesOfRadians_iff (finite : v.isFinite = true) :
    (degreesOfRadians v).isFinite = true ↔
      |toRat v| * toRat degreesInRadian < 2 ^ 1024 - 2 ^ 970 := by
  obtain ⟨finite', pos, -⟩ := degreesInRadian_spec
  show (v * degreesInRadian).isFinite = true ↔ _
  rw [isFinite_mul_iff finite finite', abs_mul, abs_of_pos pos]

/-- An angle of less than a turn is finite in either unit. -/
theorem isFinite_ofRadians (mode : AngleMode) (finite : v.isFinite = true) (small : |toRat v| ≤ 4) :
    (mode.ofRadians v).isFinite = true := by
  cases mode with
  | radians => exact finite
  | degrees =>
      obtain ⟨-, pos, below⟩ := degreesInRadian_spec
      refine (isFinite_degreesOfRadians_iff finite).2 (lt_limit ?_)
      calc |toRat v| * toRat degreesInRadian ≤ 4 * 64 :=
            mul_le_mul small below.le pos.le (by norm_num)
        _ < 2 ^ 54 - 1 := by norm_num

end AngleMode

/-! ## The elementary functions -/

/-- What is asked of the elementary functions: on finite arguments in their domains they are
finite, the inverse trigonometric functions are less than a turn, the natural logarithm is at most
that of the greatest double and is not next to zero unless its argument is one; and the functions
that grow beyond all doubles are no NaN. -/
structure Elementary.KeepsRanges (lib : Elementary) : Prop where
  sin : ∀ v : Float, v.isFinite = true → (lib.sin v).isFinite = true
  cos : ∀ v : Float, v.isFinite = true → (lib.cos v).isFinite = true
  tan : ∀ v : Float, v.isFinite = true → (lib.tan v).isFinite = true
  tanh : ∀ v : Float, v.isFinite = true → (lib.tanh v).isFinite = true
  asin : ∀ v : Float, Arithmetic.isSine v = true →
    (lib.asin v).isFinite = true ∧ |toRat (lib.asin v)| ≤ 4
  acos : ∀ v : Float, Arithmetic.isSine v = true →
    (lib.acos v).isFinite = true ∧ |toRat (lib.acos v)| ≤ 4
  atan : ∀ v : Float, v.isFinite = true →
    (lib.atan v).isFinite = true ∧ |toRat (lib.atan v)| ≤ 4
  log10 : ∀ v : Float, v.isFinite = true → 0 < v → (lib.log10 v).isFinite = true
  ln : ∀ v : Float, v.isFinite = true → 0 < v →
    (lib.ln v).isFinite = true ∧ |toRat (lib.ln v)| ≤ 2 ^ (10 : Int) ∧
      ((v == 1) = false → 2 ^ (-60 : Int) ≤ |toRat (lib.ln v)|)
  cbrt : ∀ v : Float, v.isFinite = true → 0 ≤ v → (lib.pow v (1.0 / 3.0)).isFinite = true
  exp : ∀ v : Float, v.isFinite = true → (lib.exp v).isNaN = false
  exp2 : ∀ v : Float, v.isFinite = true → (lib.exp2 v).isNaN = false
  exp10 : ∀ v : Float, v.isFinite = true → (lib.pow 10.0 v).isNaN = false
  sinh : ∀ v : Float, v.isFinite = true → (lib.sinh v).isNaN = false
  cosh : ∀ v : Float, v.isFinite = true → (lib.cosh v).isNaN = false

variable {lib : Elementary} {v a b : Float}

theorem Elementary.KeepsRanges.keepsFinite (keeps : lib.KeepsRanges) : lib.KeepsFinite where
  sin := keeps.sin
  cos := keeps.cos
  tan := keeps.tan
  asin mode v inside := mode.isFinite_ofRadians (keeps.asin v inside).1 (keeps.asin v inside).2
  acos mode v inside := mode.isFinite_ofRadians (keeps.acos v inside).1 (keeps.acos v inside).2
  atan mode v finite := mode.isFinite_ofRadians (keeps.atan v finite).1 (keeps.atan v finite).2
  log10 := keeps.log10
  ln v finite pos := (keeps.ln v finite pos).1
  exp := keeps.exp

/-! ## Operations -/

namespace Arithmetic

theorem yieldsFinite_percent (finite : a.isFinite = true) (finite' : b.isFinite = true) :
    YieldsFinite (percent a b) := by
  have hundred : (100.0 : Float).isFinite = true ∧ ((100.0 : Float) == 0) = false := by
    decide +kernel
  exact yieldsFinite_bounded _ (isNaN_div (isNaN_mul finite finite') hundred.1 hundred.2)

/-- **A logarithm of any base is finite**: the natural logarithms are too near to each other for
their quotient to be infinite. -/
theorem yieldsFinite_logBase (keeps : lib.KeepsRanges) (finite : a.isFinite = true)
    (finite' : b.isFinite = true) : YieldsFinite (logBase lib a b) := by
  refine .ite (fun _ => .error _) fun above => .ite (fun _ => .error _) fun base => .ok ?_
  simp only [Bool.or_eq_true, decide_eq_true_eq, not_or] at base
  obtain ⟨number, small, -⟩ := keeps.ln a finite (pos_of_not_nonpos finite above)
  obtain ⟨number', -, large⟩ := keeps.ln b finite' (pos_of_not_nonpos finite' base.1)
  exact isFinite_div number number' small (large (Bool.eq_false_iff.2 base.2)) (by decide)

theorem isFinite_cbrt (keeps : lib.KeepsRanges) (finite : v.isFinite = true) :
    (cbrt lib v).isFinite = true := by
  unfold cbrt
  split
  · rename_i above
    exact keeps.cbrt v finite above
  · rename_i below
    rw [le_iff_toRat (by decide +kernel) finite, toRat_zero] at below
    refine isFinite_neg (keeps.cbrt (-v) (isFinite_neg finite) ?_)
    rw [le_iff_toRat (by decide +kernel) (isFinite_neg finite), toRat_zero,
      toRat_neg (isNaN_of_isFinite finite)]
    linarith

theorem yieldsFinite_gamma (lib : Elementary) (v : Float) : YieldsFinite (gamma lib v) :=
  .ite (fun _ => .error _) fun _ => .ite (fun _ => .error _) fun number =>
    yieldsFinite_bounded _ (Bool.eq_false_iff.2 number)

end Arithmetic

namespace Direct

open Arithmetic

theorem Operation.yieldsFinite_apply (keeps : lib.KeepsRanges) (o : Operation)
    (finite : a.isFinite = true) (finite' : b.isFinite = true) :
    YieldsFinite (o.apply lib a b) := by
  cases o with
  | add => exact yieldsFinite_binary lib .add finite finite'
  | sub => exact yieldsFinite_binary lib .sub finite finite'
  | mul => exact yieldsFinite_binary lib .mul finite finite'
  | div => exact yieldsFinite_binary lib .div finite finite'
  | pow => exact yieldsFinite_binary lib .pow finite finite'
  | percent => exact yieldsFinite_percent finite finite'
  | logarithm => exact yieldsFinite_logBase keeps finite finite'

theorem UnaryFunction.yieldsFinite_raw (keeps : lib.KeepsRanges) (mode : AngleMode)
    (f : UnaryFunction) (finite : v.isFinite = true) : YieldsFinite (f.raw lib mode v) := by
  have shared (g : Func) : YieldsFinite ((ofExpressions g).raw lib mode v) := by
    rw [raw_ofExpressions]
    exact g.yieldsFinite_raw keeps.keepsFinite mode finite
  cases f with
  | sin => exact shared .sin
  | cos => exact shared .cos
  | tan => exact shared .tan
  | asin => exact shared .asin
  | acos => exact shared .acos
  | atan => exact shared .atan
  | log => exact shared .log
  | ln => exact shared .ln
  | exp => exact shared .exp
  | sqrt => exact shared .sqrt
  | abs => exact shared .abs
  | floor => exact shared .floor
  | ceil => exact shared .ceil
  | round => exact shared .round
  | exp2 => exact yieldsFinite_bounded _ (keeps.exp2 v finite)
  | exp10 => exact yieldsFinite_bounded _ (keeps.exp10 v finite)
  | cbrt => exact .ok (isFinite_cbrt keeps finite)
  | negate => exact .ok (isFinite_neg finite)
  | factorial => exact yieldsFinite_factorial finite
  | sinh => exact yieldsFinite_bounded _ (keeps.sinh v finite)
  | cosh => exact yieldsFinite_bounded _ (keeps.cosh v finite)
  | tanh => exact .ok (keeps.tanh v finite)
  | gamma => exact yieldsFinite_gamma lib v

/-- **Every sign** yields finite doubles of finite numbers. -/
theorem yieldsFinite_applyOperator (keeps : lib.KeepsRanges) (finite : a.isFinite = true)
    (finite' : b.isFinite = true) (sign : Text) :
    YieldsFinite (applyOperator lib a b sign) := by
  unfold applyOperator
  split
  · exact Operation.yieldsFinite_apply keeps _ finite finite'
  · exact .error _

/-- **Every name** yields finite doubles of finite numbers. -/
theorem yieldsFinite_applyFunction (keeps : lib.KeepsRanges) (mode : AngleMode)
    (finite : v.isFinite = true) (name : Text) :
    YieldsFinite (applyFunction lib mode v name) := by
  unfold applyFunction
  split
  · exact (UnaryFunction.yieldsFinite_raw keeps mode _ finite).mapError _
  · exact .error _

end Direct

/-! ## What is shown -/

/-- The texts of the doubles that are not finite. -/
def Text.NamesNoNumber (t : Text) : Prop := t = "inf" ∨ t = "-inf" ∨ t = "NaN"

/-- **A double is shown as no number** if and only if it is none. -/
theorem Display.namesNoNumber_result_iff (digits : Nat) (v : Float) :
    (result digits v).NamesNoNumber ↔ v.isFinite = false := by
  cases finite : v.isFinite with
  | true =>
      have read := valueOf?_shown (v == 0 || isPlain v.abs) (isNegative v) (rounded digits v)
      rw [← result_eq_shown digits finite] at read
      refine iff_of_false ?_ nofun
      rintro (name | name | name) <;> rw [name] at read <;> cases read
  | false =>
      refine iff_of_true ?_ rfl
      rw [result_of_not_finite digits finite, Number.text, Number.signed, finite]
      split
      · exact .inr (.inr rfl)
      · cases isNegative v with
        | false => exact .inl rfl
        | true => exact .inr (.inl rfl)

/-- An angle in radians too large for a double in degrees. -/
def AngleMode.Overflows (v : Float) : Prop :=
  2 ^ 1024 - 2 ^ 970 ≤ |toRat v| * toRat degreesInRadian

/-- **A conversion is finite** unless it is to degrees and too large. -/
theorem AngleMode.isFinite_convert_iff (finite : v.isFinite = true) (source target : AngleMode) :
    (convert v source target).isFinite = true ↔
      ¬ (source = .radians ∧ target = .degrees ∧ Overflows v) := by
  cases source <;> cases target
  · simpa using finite
  · simpa [convert] using isFinite_radiansOfDegrees finite
  · simp only [convert, isFinite_degreesOfRadians_iff finite, Overflows, true_and, not_le]
  · simpa using finite

namespace Session

theorem not_namesNoNumber_outcomeText (digits : Nat) {outcome : Except Fault Float}
    (yields : YieldsFinite outcome) : ¬ (State.outcomeText digits outcome).NamesNoNumber := by
  cases outcome with
  | ok v =>
      show ¬ (Display.result digits v).NamesNoNumber
      rw [Display.namesNoNumber_result_iff, yields v rfl]
      exact nofun
  | error fault =>
      -- a message begins with the name of its class in brackets
      rintro (name | name | name) <;> cases name

theorem namesNoNumber_convert_iff (s : State) (finite : s.panel.a.isFinite = true)
    (source target : AngleMode) :
    (s.convert source target).panel.output.NamesNoNumber ↔
      source = .radians ∧ target = .degrees ∧ AngleMode.Overflows s.panel.a := by
  show (Display.result s.digits _).NamesNoNumber ↔ _
  rw [Display.namesNoNumber_result_iff, ← Bool.not_eq_true,
    AngleMode.isFinite_convert_iff finite, not_not]

/-- **The panel on finite numbers.**  Every operation and every function gives a finite double or a
fault, and the panel shows a number or the message of the fault.  A conversion gives an infinity,
and the panel shows it, for angles in radians that are too large in degrees and for no others. -/
theorem panel_output_spec (lib : Elementary) (keeps : lib.KeepsRanges) (s : State)
    (finite : s.panel.a.isFinite = true) (finite' : s.panel.b.isFinite = true) :
    (∀ sign, YieldsFinite (Direct.applyOperator lib s.panel.a s.panel.b sign) ∧
        ¬ (s.applyOperator lib sign).panel.output.NamesNoNumber) ∧
      (∀ mode name, YieldsFinite (Direct.applyFunction lib mode s.panel.a name)) ∧
      ¬ (s.applyFunction lib).panel.output.NamesNoNumber ∧
      ∀ source target,
        ((AngleMode.convert s.panel.a source target).isFinite = true ↔
            ¬ (source = .radians ∧ target = .degrees ∧ AngleMode.Overflows s.panel.a)) ∧
          ((s.convert source target).panel.output.NamesNoNumber ↔
            source = .radians ∧ target = .degrees ∧ AngleMode.Overflows s.panel.a) := by
  have operators := Direct.yieldsFinite_applyOperator keeps finite finite'
  have functions mode := Direct.yieldsFinite_applyFunction keeps mode finite
  exact ⟨fun sign => ⟨operators sign, not_namesNoNumber_outcomeText _ (operators sign)⟩, functions,
    not_namesNoNumber_outcomeText _ (functions _ _), fun source target =>
      ⟨AngleMode.isFinite_convert_iff finite source target,
        namesNoNumber_convert_iff s finite source target⟩⟩

/-- The logarithm of one, in base two and the natural one, with functions that are those of
analysis there. -/
theorem panel_output_spec_logarithm :
    let lib : Elementary :=
      { sin := fun _ => 0, cos := fun _ => 1, tan := fun _ => 0, asin := fun _ => 0
        acos := fun _ => 0, atan := fun _ => 0, exp := fun _ => 1, exp2 := fun _ => 1
        ln := fun v => if v == 1 then 0 else 0.6931471805599453
        log10 := fun _ => 0, sinh := fun _ => 0, cosh := fun _ => 1
        tanh := fun _ => 0, pow := fun _ _ => 1, gamma := fun _ => 1 }
    let s : State := { panel := { a := 1, b := 2, function := "ln" } }
    lib.KeepsRanges ∧ s.panel.a.isFinite = true ∧ s.panel.b.isFinite = true ∧
      (s.applyOperator lib "log").panel.output = "0" ∧
      ¬ (s.applyOperator lib "log").panel.output.NamesNoNumber ∧
      ¬ (s.applyFunction lib).panel.output.NamesNoNumber := by
  intro lib s
  have zero : (0 : Float).isFinite = true ∧ |toRat 0| ≤ 4 := by
    refine ⟨by decide +kernel, ?_⟩
    rw [toRat_zero]
    norm_num
  have one : (1 : Float).isFinite = true ∧ (1 : Float).isNaN = false := by decide +kernel
  have ln : ∀ v : Float, (lib.ln v).isFinite = true ∧ |toRat (lib.ln v)| ≤ 2 ^ (10 : Int) ∧
      ((v == 1) = false → 2 ^ (-60 : Int) ≤ |toRat (lib.ln v)|) := by
    intro v
    have parts : (0.6931471805599453 : Float).isFinite = true ∧
        significand 0.6931471805599453 = 6243314768165359 ∧ exponent 0.6931471805599453 = -53 := by
      decide +kernel
    show (if v == 1 then (0 : Float) else 0.6931471805599453).isFinite = true ∧
      |toRat (if v == 1 then (0 : Float) else 0.6931471805599453)| ≤ _ ∧
      (_ → _ ≤ |toRat (if v == 1 then (0 : Float) else 0.6931471805599453)|)
    cases v == 1 with
    | true =>
        rw [if_pos rfl, toRat_zero]
        exact ⟨zero.1, by norm_num, nofun⟩
    | false =>
        rw [if_neg Bool.false_ne_true, abs_toRat, magnitude_eq, parts.2.1, parts.2.2]
        exact ⟨parts.1, by norm_num, fun _ => by norm_num⟩
  have keeps : lib.KeepsRanges :=
    { sin := fun _ _ => zero.1, cos := fun _ _ => one.1, tan := fun _ _ => zero.1
      tanh := fun _ _ => zero.1, asin := fun _ _ => zero, acos := fun _ _ => zero
      atan := fun _ _ => zero, log10 := fun _ _ _ => zero.1, ln := fun v _ _ => ln v
      cbrt := fun _ _ _ => one.1, exp := fun _ _ => one.2, exp2 := fun _ _ => one.2
      exp10 := fun _ _ => one.2, sinh := fun _ _ => isNaN_of_isFinite zero.1
      cosh := fun _ _ => one.2 }
  have shown : (s.applyOperator lib "log").panel.output = "0" := by decide +kernel
  have finite : s.panel.a.isFinite = true ∧ s.panel.b.isFinite = true := by decide +kernel
  obtain ⟨operators, -, function, -⟩ := panel_output_spec lib keeps s finite.1 finite.2
  exact ⟨keeps, finite.1, finite.2, shown, (operators "log").2, function⟩

/-- An angle of 10^308 radians is shown as an infinity in degrees. -/
theorem panel_output_infinite :
    let s : State := { panel := { a := 1e308 } }
    s.panel.a.isFinite = true ∧ s.panel.b.isFinite = true ∧
      (AngleMode.convert s.panel.a .radians .degrees).isFinite = false ∧
      (s.convert .radians .degrees).panel.output = "inf" := by
  decide +kernel

/-! ## Whole runs -/

/-- A panel with finite numbers, the first one not too large as an angle, that shows no infinity
and no NaN. -/
structure Panel.Sound (p : Panel) : Prop where
  first : p.a.isFinite = true
  second : p.b.isFinite = true
  narrow : ¬ AngleMode.Overflows p.a
  output : ¬ p.output.NamesNoNumber

/-- Whether the numbers that an action enters are finite, and the first not too large as an
angle. -/
def Action.EntersNarrow : Action → Prop
  | .setFirst a => a.isFinite = true ∧ ¬ AngleMode.Overflows a
  | .setSecond b => b.isFinite = true
  | _ => True

theorem Panel.sound_default : ({} : Panel).Sound where
  first := by decide +kernel
  second := by decide +kernel
  narrow := by
    show ¬ AngleMode.Overflows 0
    rw [AngleMode.Overflows, toRat_zero, abs_zero, zero_mul, not_le]
    exact lt_limit (by norm_num)
  output := by
    rintro (name | name | name) <;> cases name

/-- **An action keeps the panel sound.** -/
theorem sound_act (keeps : lib.KeepsRanges) {s : State} (sound : s.panel.Sound) {action : Action}
    (enters : action.EntersNarrow) : (act lib s action).panel.Sound := by
  have evaluated : (s.equals lib).panel.Sound := by
    rwa [show (s.equals lib).panel = s.panel from congrArg Inputs.panel (inputs_equals lib s)]
  cases action with
  | reset => exact Panel.sound_default
  | equals => exact evaluated
  | enter received =>
      cases received with
      | false => exact sound
      | true => exact evaluated
  | chooseMode mode =>
      have panel : (act lib s (.chooseMode mode)).panel = s.panel := by
        simp only [act]
        split <;> rfl
      rwa [panel]
  | setFirst a => exact ⟨enters.1, sound.second, enters.2, sound.output⟩
  | setSecond b => exact ⟨sound.first, enters, sound.narrow, sound.output⟩
  | applyOperator sign =>
      have yields := Direct.yieldsFinite_applyOperator keeps sound.first sound.second sign
      exact ⟨sound.first, sound.second, sound.narrow, not_namesNoNumber_outcomeText _ yields⟩
  | applyFunction =>
      have yields := Direct.yieldsFinite_applyFunction keeps s.settings.mode sound.first
        s.panel.function
      exact ⟨sound.first, sound.second, sound.narrow, not_namesNoNumber_outcomeText _ yields⟩
  | convert source target =>
      refine ⟨sound.first, sound.second, sound.narrow, ?_⟩
      show ¬ (s.convert source target).panel.output.NamesNoNumber
      rw [namesNoNumber_convert_iff s sound.first]
      exact fun overflow => sound.narrow overflow.2.2
  | chooseFunction name => exact ⟨sound.first, sound.second, sound.narrow, sound.output⟩
  | _ => exact sound

/-- **With numbers that are narrow enough the panel never shows an infinity or a NaN**, whatever is
done to the application. -/
theorem run_panel (keeps : lib.KeepsRanges) {s : State} (sound : s.panel.Sound)
    {actions : List Action} (enters : ∀ action ∈ actions, action.EntersNarrow) :
    (run lib s actions).panel.Sound := by
  induction actions generalizing s with
  | nil => exact sound
  | cons action actions ih =>
      rw [run_cons]
      exact ih (sound_act keeps sound (enters action List.mem_cons_self))
        fun other member => enters other (List.mem_cons_of_mem action member)

end Session

end SciCalc
