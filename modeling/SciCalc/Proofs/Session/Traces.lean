/-
# SciCalc.Proofs.Session.Traces -- what failures and resets leave behind

Two sessions are `Alike` if they have the same inputs and the same result; their
errors and records may differ.  No action tells them apart:

* `Alike.step`: one action on each leaves them alike;
* `Alike.settles`: after an evaluation, or after what is shown is emptied, they
  show the same, error and record included;
* `Alike.run`: so it is after any actions, and they show the same once one of
  the actions was of that kind.

An evaluation that fails leaves a session alike to what it was
(`alike_of_fails`), so pressing equals there can be left out.  A reset leaves the
session of the beginning, so everything before it can be left out.
-/
import SciCalc.Proofs.Session.Steps

namespace SciCalc

set_option autoImplicit false

namespace Session

variable {lib : Elementary}

/-- The same inputs and the same result. -/
structure Alike (s t : State) : Prop where
  inputs : s.inputs = t.inputs
  result : s.result = t.result

/-- Pressing equals now gives an error: the entry is blank or its evaluation fails. -/
def Fails (lib : Elementary) (s : State) : Prop :=
  s.entry.trim = [] ∨ ∃ fault, s.settings.evaluate lib s.entry.trim = .error fault

/-- Whether an action decides all of what is shown. -/
def Action.settles (a : Action) : Bool := a.evaluates || a.clears

theorem shown_equals_congr {s t : State} (alike : Alike s t) :
    (s.equals lib).shown = (t.equals lib).shown := by
  obtain ⟨inputs, result⟩ := alike
  simp only [State.inputs, Inputs.mk.injEq] at inputs
  obtain ⟨entry, digits, settings, -⟩ := inputs
  simp only [State.equals, entry, settings, digits]
  split
  · simp [State.showError, State.shown, result]
  · split
    · rfl
    · simp [State.showError, State.shown, result]

namespace Alike

variable {s t : State}

/-- **An action that settles** what is shown makes alike sessions show the same. -/
theorem settles (alike : Alike s t) {a : Action} (settles : a.settles = true) :
    (act lib s a).shown = (act lib t a).shown := by
  cases evaluates : a.evaluates with
  | true =>
      rw [act_of_evaluates lib s a evaluates, act_of_evaluates lib t a evaluates]
      exact shown_equals_congr alike
  | false =>
      have clears : a.clears = true := by simpa [Action.settles, evaluates] using settles
      rw [shown_of_clears lib s a clears, shown_of_clears lib t a clears]

/-- Every other action leaves what is shown as it was. -/
theorem shown_act (alike : Alike s t) (same : s.shown = t.shown) (a : Action) :
    (act lib s a).shown = (act lib t a).shown := by
  cases settles : a.settles with
  | true => exact alike.settles settles
  | false =>
      obtain ⟨evaluates, clears⟩ := Bool.or_eq_false_iff.1 settles
      rw [shown_of_idle lib s a evaluates clears, shown_of_idle lib t a evaluates clears, same]

/-- **No action** tells alike sessions apart. -/
theorem step (alike : Alike s t) (a : Action) : Alike (act lib s a) (act lib t a) where
  inputs := inputs_act_congr lib a alike.inputs
  result := by
    cases settles : a.settles with
    | true => exact congrArg Shown.result (alike.settles settles)
    | false =>
        obtain ⟨evaluates, clears⟩ := Bool.or_eq_false_iff.1 settles
        have kept := shown_of_idle lib s a evaluates clears
        have kept' := shown_of_idle lib t a evaluates clears
        calc
          (act lib s a).result = s.result := congrArg Shown.result kept
          _ = t.result := alike.result
          _ = (act lib t a).result := (congrArg Shown.result kept').symm

theorem shown_run (alike : Alike s t) (same : s.shown = t.shown) (actions : List Action) :
    (run lib s actions).shown = (run lib t actions).shown := by
  induction actions generalizing s t with
  | nil => exact same
  | cons a actions ih => exact ih (alike.step a) (alike.shown_act same a)

/-- Alike sessions stay alike, and show the same from the first action that settles on. -/
theorem run (alike : Alike s t) (actions : List Action) :
    Alike (run lib s actions) (run lib t actions) ∧
      ((∃ a ∈ actions, a.settles = true) →
        (run lib s actions).shown = (run lib t actions).shown) := by
  induction actions generalizing s t with
  | nil => exact ⟨alike, by simp⟩
  | cons a actions ih =>
      have next : Alike (act lib s a) (act lib t a) := alike.step a
      obtain ⟨stays, shows⟩ := ih next
      refine ⟨stays, ?_⟩
      rintro ⟨b, member, settles⟩
      rcases List.mem_cons.1 member with rfl | later
      · exact (alike.step b).shown_run (alike.settles settles) actions
      · exact shows ⟨b, later, settles⟩

end Alike

/-- A failure changes neither the inputs nor the result. -/
theorem alike_of_fails {s : State} (fails : Fails lib s) : Alike (s.equals lib) s where
  inputs := inputs_equals lib s
  result := by
    have failed : ∃ fault, s.settings.evaluate lib s.entry = .error fault := by
      rcases fails with blank | ⟨fault, failed⟩
      · exact ⟨_, Settings.evaluate_of_trim_eq_nil lib s.settings blank⟩
      · exact ⟨fault, (Settings.evaluate_trim lib s.settings s.entry).symm.trans failed⟩
    obtain ⟨fault, failed⟩ := failed
    obtain ⟨message, kind, -, shown⟩ := shown_equals_of_error lib s failed
    exact congrArg Shown.result shown

variable (lib)

/-- **Failures and resets leave no trace.**  After any actions, an evaluation that fails can be left
out: whatever comes next, the inputs and the result are the same, and so is all that is shown once
an action settles it.  A reset can be left out with everything before it. -/
theorem run_without_trace (before after : List Action) :
    (∀ e : Action, e.evaluates = true → Fails lib (run lib {} before) →
      Alike (run lib {} (before ++ e :: after)) (run lib {} (before ++ after)) ∧
        ((∃ a ∈ after, a.settles = true) →
          (run lib {} (before ++ e :: after)).shown = (run lib {} (before ++ after)).shown)) ∧
      run lib {} (before ++ .reset :: after) = run lib {} after := by
  constructor
  · intro e evaluates fails
    have alike : Alike (act lib (run lib {} before) e) (run lib {} before) := by
      rw [act_of_evaluates lib _ e evaluates]
      exact alike_of_fails fails
    rw [run_append, run_append, run_cons]
    exact alike.run after
  · rw [run_append, run_cons]
    rfl

/-- A parenthesis that closes nothing fails after a result was shown.  With the entry emptied and
equals pressed again, the result is still there, next to the same error as without the failure. -/
theorem run_without_trace_close :
    let before : List Action := [.type "6*7", .equals, .type ")"]
    let after : List Action := [.clearEntry, .equals]
    Fails .machine (run .machine {} before) ∧
      (run .machine {} (before ++ .equals :: after)).result = "42".toList ∧
      (run .machine {} (before ++ .equals :: after)).shown =
        (run .machine {} (before ++ after)).shown := by
  intro before after
  have settings : (run .machine {} before).settings = {} := by decide +kernel
  have entry : (run .machine {} before).entry = [')'] := rfl
  have fails : Fails .machine (run .machine {} before) := by
    refine .inr ⟨.malformed (.missingOperandBefore .closeGroup), ?_⟩
    rw [settings, entry]
    rfl
  have kept : (run .machine {} (before ++ .equals :: after)).result = "42".toList := by
    decide +kernel
  obtain ⟨-, shows⟩ := (run_without_trace .machine before after).1 .equals rfl fails
  exact ⟨fails, kept, shows ⟨.equals, by simp [after], rfl⟩⟩

end Session

end SciCalc
