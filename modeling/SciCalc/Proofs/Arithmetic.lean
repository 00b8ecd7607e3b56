/-
# SciCalc.Proofs.Arithmetic -- the faults of one operation

An operation on doubles has three kinds of faults: an argument outside its
domain, a result too large, a division by zero (`Fault.ofOperation`).  No name
stands around any of them, and none speaks of the entry.
-/
import SciCalc.Arithmetic

namespace SciCalc

set_option autoImplicit false

namespace Fault

/-- Whether a fault is one of a single operation, with no name around it. -/
def ofOperation : Fault → Bool
  | outOfDomain _ => true
  | tooLarge _ => true
  | divisionByZero => true
  | _ => false

theorem innermost_of_ofOperation {fault : Fault} (own : fault.ofOperation = true) :
    fault.innermost = fault := by
  cases fault <;> first | rfl | cases own

end Fault

/-- A result that, if it is a fault, is one of a single operation. -/
def Operational (result : Except Fault Float) : Prop :=
  ∀ fault, result = .error fault → fault.ofOperation = true

theorem operational_ok (v : Float) : Operational (.ok v) := nofun

theorem operational_error {fault : Fault} (own : fault.ofOperation = true) :
    Operational (.error fault) :=
  FailsOnly.error own

theorem operational_ite {condition : Prop} [Decidable condition] {yes no : Except Fault Float}
    (first : Operational yes) (second : Operational no) :
    Operational (if condition then yes else no) :=
  FailsOnly.ite first second

namespace Arithmetic

theorem operational_bounded (operation : Text) (v : Float) : Operational (bounded operation v) :=
  operational_ite (operational_error rfl) (operational_ok v)

theorem operational_binary (lib : Elementary) (o : Operator) (a b : Float) :
    Operational (binary lib o a b) := by
  cases o with
  | add => exact operational_bounded _ _
  | sub => exact operational_bounded _ _
  | mul => exact operational_bounded _ _
  | div => exact operational_ite (operational_error rfl) (operational_bounded _ _)
  | pow =>
      exact operational_ite (operational_error rfl)
        (operational_ite (operational_error rfl) (operational_ok _))

theorem operational_factorial (v : Float) : Operational (factorial v) :=
  operational_ite (operational_error rfl)
    (operational_ite (operational_error rfl)
      (operational_ite (operational_error rfl) (operational_ok _)))

theorem operational_tanRadians (lib : Elementary) (v : Float) :
    Operational (tanRadians lib v) :=
  operational_ite (operational_error rfl) (operational_ok _)

theorem operational_tan (lib : Elementary) (mode : AngleMode) (v : Float) :
    Operational (tan lib mode v) := by
  cases mode with
  | degrees => exact operational_ite (operational_error rfl) (operational_tanRadians lib _)
  | radians => exact operational_tanRadians lib v

end Arithmetic

open Arithmetic in
/-- The functions of expressions have faults of single operations only. -/
theorem Func.operational_raw (lib : Elementary) (mode : AngleMode) (f : Func) (v : Float) :
    Operational (f.raw lib mode v) := by
  cases f with
  | tan => exact operational_tan lib mode v
  | exp => exact operational_bounded _ _
  | asin => exact operational_ite (operational_ok _) (operational_error rfl)
  | acos => exact operational_ite (operational_ok _) (operational_error rfl)
  | log => exact operational_ite (operational_error rfl) (operational_ok _)
  | ln => exact operational_ite (operational_error rfl) (operational_ok _)
  | sqrt => exact operational_ite (operational_error rfl) (operational_ok _)
  | _ => exact operational_ok _

end SciCalc
