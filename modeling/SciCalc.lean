import SciCalc.Main
import SciCalc.Session
import SciCalc.Proofs.Postfix.Completeness
import SciCalc.Proofs.Postfix.Soundness
import SciCalc.Proofs.Composition
import SciCalc.Proofs.Written
import SciCalc.Proofs.Limits
import SciCalc.Proofs.Execution
import SciCalc.Proofs.Products
import SciCalc.Proofs.Agreement
import SciCalc.Proofs.Working
import SciCalc.Proofs.Finiteness
import SciCalc.Proofs.Keypad
import SciCalc.Proofs.Postfix.Prefixes
import SciCalc.Proofs.Postfix.Waiting
import SciCalc.Proofs.Sentences
import SciCalc.Proofs.Session.History
import SciCalc.Proofs.Session.Traces
import SciCalc.Proofs.Editing
import SciCalc.Proofs.Batch
import SciCalc.Proofs.Piece.Calls
import SciCalc.Proofs.Balance
import SciCalc.Proofs.Token.Faults
import SciCalc.Proofs.Token.Texts
import SciCalc.Proofs.Explicit
import SciCalc.Proofs.AngleMode
import SciCalc.Proofs.Tangent
import SciCalc.Proofs.Display
import SciCalc.Proofs.Session.Panel
