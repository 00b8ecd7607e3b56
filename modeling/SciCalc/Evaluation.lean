/-
# SciCalc.Evaluation -- from a raw entry to its value

An entry goes through five stages: its normal form, its tokens, its postfix
list, its tree, its value.  `Reading` keeps what the first four leave behind,
`Working` is their written record.  The first fault of any stage is the answer.

The settings are read once.  Only the limits matter up to the tree
(`Settings.read`), only the unit of angles after it.
-/
import SciCalc.Expr.Value
import SciCalc.Expr.Written
import SciCalc.Piece.Product
import SciCalc.Postfix.Tree
import SciCalc.Postfix.Yard
import SciCalc.Settings
import SciCalc.Token.Reading

namespace SciCalc

set_option autoImplicit false

/-- What the stages before evaluation make of an entry. -/
structure Reading where
  normalized : Text
  tokens : List Token
  postfixList : List Token
  tree : Expr
  deriving DecidableEq

/-- The written record of an evaluation, one text for each stage. -/
structure Working where
  normalized : Text := []
  tokens : Text := []
  postfixList : Text := []
  tree : Text := []
  note : Text := []
  deriving DecidableEq, Repr, Inhabited

namespace Working

/-- The note that names the stages and the unit of angles. -/
def noteFor (mode : AngleMode) : Text :=
  "Pipeline: normalise → jetons → RPN → arbre → valeur (mode ".toList ++ mode.text
    ++ [')', '.']

end Working

namespace Reading

/-- The written record of a reading. -/
def working (r : Reading) (mode : AngleMode) : Working where
  normalized := r.normalized
  tokens := Token.listText r.tokens
  postfixList := Token.listText r.postfixList
  tree := r.tree.text
  note := Working.noteFor mode

end Reading

namespace Settings

/-- Refuses a list of tokens that is too long. -/
def admitTokens (s : Settings) (ts : List Token) : Except Fault Unit :=
  if s.maxTokens < ts.length then .error (.exceeded (.tokens ts.length s.maxTokens)) else .ok ()

/-- Reads an entry up to its tree, within the limits. -/
def read (s : Settings) (entry : Text) : Except Fault Reading :=
  let normalized := normalize entry
  if normalized.isEmpty then .error (.malformed .emptyExpression)
  else do
    let tokens ← Token.read normalized
    s.admitTokens tokens
    let postfixList ← Postfix.ofTokens s.maxNesting tokens
    let tree ← Postfix.tree s.maxHeight postfixList
    return { normalized, tokens, postfixList, tree }

/-- Evaluates an entry: its value and the record of the stages. -/
def evaluate (lib : Elementary) (s : Settings) (entry : Text) : Except Fault (Float × Working) := do
  let r ← s.read entry
  let v ← r.tree.value lib s.mode
  return (v, r.working s.mode)

/-- The value of an entry. -/
def valueOf (lib : Elementary) (s : Settings) (entry : Text) : Except Fault Float :=
  (s.evaluate lib entry).map Prod.fst

end Settings

end SciCalc
