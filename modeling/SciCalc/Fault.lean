/-
# SciCalc.Fault -- why a calculation fails

A fault is a cause, never a text: what was wrong with the entry, which domain an
argument left, which result is too large, what is not supported, which limit was
met.  A function adds its name around a fault of its own or of its argument
(`Fault.within`).

`Fault.kind` is the class of a fault with those names looked through, and
`Fault.message` its wording in full.  Which faults a result can be is said with
`FailsOnly`.
-/
import SciCalc.Token
import SciCalc.Text.Quoted

namespace SciCalc

set_option autoImplicit false

/-- The classes of faults. -/
inductive Kind where
  | malformed
  | domain
  | overflow
  | divisionByZero
  | unsupported
  | limit
  deriving DecidableEq, Repr, Inhabited

/-- What is wrong with the form of an entry. -/
inductive Malformed where
  /-- Nothing is there to evaluate. -/
  | emptyExpression
  /-- An operand follows another one. -/
  | missingOperatorBefore (t : Token)
  /-- An operator or a closing parenthesis stands where an operand is due. -/
  | missingOperandBefore (t : Token)
  /-- The sign of the factorial stands where an operand is due. -/
  | factorialWithoutOperand
  /-- The name of a function without a parenthesis after it. -/
  | groupExpectedAfter (name : Text)
  /-- A closing parenthesis that closes nothing. -/
  | unmatchedClose
  /-- An opening parenthesis that is never closed. -/
  | unclosedOpen
  /-- The end of the entry where an operand is due. -/
  | missingFinalOperand
  /-- A postfix list in which a token finds too few operands. -/
  | missingOperandFor (t : Token)
  /-- A postfix list with a parenthesis in it. -/
  | groupInPostfix
  /-- A postfix list that leaves more than one operand. -/
  | missingOperator
  /-- Digits and points that are no numeral, or too large for a double. -/
  | invalidNumber (t : Text)
  /-- A character that has no place in an expression. -/
  | unexpectedCharacter (c : Char)
  deriving DecidableEq

/-- Which domain an argument is outside of. -/
inductive OutOfDomain where
  | invalidPower (base exponent : Float)
  | squareRootOfNegative
  | factorialOfNegative
  | factorialOfFraction (v : Float)
  | tangentUndefinedAt (v : Float)
  | tangentUndefinedHere
  | arcsine
  | arccosine
  | logarithm
  | naturalLogarithm
  | logarithmBase
  | gammaPole (v : Float)
  | gammaUndefinedAt (v : Float)
  deriving DecidableEq

/-- What is defined but too large for a double. -/
inductive TooLarge where
  | power (base exponent : Float)
  | factorial (v : Float)
  | result (operation : Text)
  deriving DecidableEq

/-- What the calculator does not know. -/
inductive Unsupported where
  | character (c : Char)
  | function (name : Text)
  | identifier (name : Text)
  | angleMode (t : Text)
  | operator (t : Text)
  deriving DecidableEq

/-- Which limit an expression exceeds. -/
inductive Exceeded where
  | tokens (count max : Nat)
  | nesting (max : Nat)
  | height (max : Nat)
  deriving DecidableEq

/-- Why a calculation fails. -/
inductive Fault where
  | malformed (cause : Malformed)
  | outOfDomain (cause : OutOfDomain)
  | tooLarge (cause : TooLarge)
  | divisionByZero
  | unsupported (cause : Unsupported)
  | exceeded (cause : Exceeded)
  | within (function : Text) (fault : Fault)
  deriving DecidableEq

/-! ## Wording -/

/-- The largest number whose factorial is a finite double. -/
def factorialMax : Float := 170.0

namespace Malformed

/-- A token as a message names it: numbers and names bare, signs between apostrophes. -/
def named : Token → Text
  | .number v => Number.text v
  | .name w => w
  | t => '\'' :: t.text ++ ['\'']

/-- The wording of a malformed entry. -/
def message : Malformed → Text
  | emptyExpression => "expression vide"
  | missingOperatorBefore t => "opérateur manquant avant ".toList ++ named t
  | missingOperandBefore t => "opérande manquant avant '".toList ++ t.text ++ ['\'']
  | factorialWithoutOperand => "'!' sans opérande"
  | groupExpectedAfter name => "parenthèse attendue après ".toList ++ name
  | unmatchedClose => "parenthèses mal appariées : ')' sans '('"
  | unclosedOpen => "parenthèses mal appariées : '(' non fermée"
  | missingFinalOperand => "opérande manquant en fin d’expression"
  | missingOperandFor t => "opérande manquant pour '".toList ++ t.text ++ ['\'']
  | groupInPostfix => "parenthèse inattendue en RPN"
  | missingOperator => "opérateur manquant"
  | invalidNumber t => "nombre invalide : ".toList ++ t
  | unexpectedCharacter c => "caractère inattendu : '".toList ++ [c, '\'']

end Malformed

/-- The wording of an argument outside its domain. -/
def OutOfDomain.message : OutOfDomain → Text
  | invalidPower a b => "puissance invalide : ".toList ++ Number.text a ++ '^' :: Number.text b
  | squareRootOfNegative => "racine carrée d’un nombre négatif"
  | factorialOfNegative => "factorielle non définie pour un nombre négatif"
  | factorialOfFraction v =>
    "factorielle définie seulement pour les entiers (reçu ".toList ++ Number.text v ++ [')']
  | tangentUndefinedAt v => "tangente indéfinie en ".toList ++ Number.text v ++ ['°']
  | tangentUndefinedHere => "tangente indéfinie en ce point"
  | arcsine => "arcsin : la valeur doit être comprise entre -1 et 1"
  | arccosine => "arccos : la valeur doit être comprise entre -1 et 1"
  | logarithm => "logarithme : la valeur doit être strictement positive"
  | naturalLogarithm => "logarithme népérien : la valeur doit être strictement positive"
  | logarithmBase => "logarithme : la base doit être positive et différente de 1"
  | gammaPole v => "gamma non définie en ".toList ++ Number.text v ++ " (pôle)".toList
  | gammaUndefinedAt v => "gamma non définie en ".toList ++ Number.text v

/-- The wording of a result that is too large. -/
def TooLarge.message : TooLarge → Text
  | power a b => "puissance non représentable : ".toList ++ Number.text a ++ '^' :: Number.text b
  | factorial v =>
    "factorielle trop grande (".toList ++ Number.text v ++ "! > ".toList
      ++ Number.text factorialMax ++ "!)".toList
  | result operation => operation ++ " : dépassement".toList

/-- The wording of what is not known. -/
def Unsupported.message : Unsupported → Text
  | character c => "opérateur inconnu : '".toList ++ [c, '\'']
  | function name => "fonction inconnue : ".toList ++ name
  | identifier name => "identifiant inconnu : ".toList ++ name
  | angleMode t => "mode d’angle inconnu : ".toList ++ t.quoted
  | operator t => "opérateur ".toList ++ t.quoted ++ " (opérateurs : + - * / ^ % log)".toList

/-- The wording of an exceeded limit. -/
def Exceeded.message : Exceeded → Text
  | tokens count max =>
    Text.ofNat count ++ " jetons (max ".toList ++ Text.ofNat max ++ [')']
  | nesting max => "plus de ".toList ++ Text.ofNat max ++ " parenthèses imbriquées".toList
  | height max => "arbre trop profond (max ".toList ++ Text.ofNat max ++ [')']

namespace Fault

/-- The class of a fault, whatever functions it arose in. -/
def kind : Fault → Kind
  | malformed _ => .malformed
  | outOfDomain _ => .domain
  | tooLarge _ => .overflow
  | divisionByZero => .divisionByZero
  | unsupported _ => .unsupported
  | exceeded _ => .limit
  | within _ fault => fault.kind

/-- The wording of a fault, the functions it arose in first. -/
def message : Fault → Text
  | malformed cause => "erreur de syntaxe : ".toList ++ cause.message
  | outOfDomain cause => "erreur de domaine : ".toList ++ cause.message
  | tooLarge cause => "dépassement : ".toList ++ cause.message
  | divisionByZero => "division par zéro"
  | unsupported cause => "opération non supportée : ".toList ++ cause.message
  | exceeded cause => "limite atteinte : ".toList ++ cause.message
  | within function fault =>
    "erreur dans ".toList ++ function ++ " : ".toList ++ fault.message

/-- The fault at the heart of the functions it arose in. -/
def innermost : Fault → Fault
  | within _ fault => fault.innermost
  | fault => fault

@[simp] theorem kind_within (function : Text) (fault : Fault) :
    (within function fault).kind = fault.kind := rfl

theorem kind_innermost (fault : Fault) : fault.innermost.kind = fault.kind := by
  induction fault with
  | within function fault ih => simpa [innermost] using ih
  | _ => rfl

end Fault

/-- The short name of a class of faults, as it stands before a message. -/
def Kind.label : Kind → Text
  | malformed => "Syntaxe"
  | domain => "Domaine"
  | overflow => "Dépassement"
  | divisionByZero => "Division par zéro"
  | unsupported => "Non supportée"
  | limit => "Limite"

/-! ## The faults of a result -/

/-- A result that, if it is a fault, is one that is allowed. -/
def FailsOnly {α : Type} (allowed : Fault → Prop) (result : Except Fault α) : Prop :=
  ∀ fault, result = .error fault → allowed fault

namespace FailsOnly

variable {α β : Type} {allowed : Fault → Prop}

theorem ok (v : α) : FailsOnly allowed (.ok v) := nofun

theorem error {fault : Fault} (holds : allowed fault) :
    FailsOnly allowed (.error fault : Except Fault α) := by
  rintro _ ⟨⟩
  exact holds

theorem ite {condition : Prop} [Decidable condition] {yes no : Except Fault α}
    (first : FailsOnly allowed yes) (second : FailsOnly allowed no) :
    FailsOnly allowed (if condition then yes else no) := by
  split
  · exact first
  · exact second

/-- One computation after another, the second on what the first gives. -/
theorem bind {result : Except Fault α} (first : FailsOnly allowed result)
    {next : α → Except Fault β} (second : ∀ v, result = .ok v → FailsOnly allowed (next v)) :
    FailsOnly allowed (result >>= next) := by
  cases result with
  | error fault => exact error (first fault rfl)
  | ok v => exact second v rfl

end FailsOnly

end SciCalc
