import TrustLogic.Token.Session
import TrustLogic.Main
import TrustLogic.Proofs.Token.Layout
import TrustLogic.Proofs.Token.Spans
import TrustLogic.Proofs.Token.Spacing
import TrustLogic.Proofs.Formula.Grammar
import TrustLogic.Proofs.Formula.RoundTrip
import TrustLogic.Proofs.Kripke.Reachable
import TrustLogic.Proofs.Kripke.Meaning
import TrustLogic.Proofs.Token.Stream
import TrustLogic.Proofs.Nesting
import TrustLogic.Proofs.Kripke.Editing
import TrustLogic.Proofs.Kripke.Rows
import TrustLogic.Proofs.Kripke.Rebuilding
import TrustLogic.Proofs.Formula.FirstFault
import TrustLogic.Proofs.Degree.Order
import TrustLogic.Proofs.Trust.Definedness
import TrustLogic.Proofs.Trust.Reference
import TrustLogic.Proofs.Formula.Variables
import TrustLogic.Proofs.Trust.Influence
import TrustLogic.Proofs.Kripke.Bisimulation
import TrustLogic.Proofs.Kripke.Substitution
import TrustLogic.Proofs.Kripke.Validation
import TrustLogic.Proofs.Formula.Descent
import TrustLogic.Proofs.Formula.Parentheses
import TrustLogic.Proofs.Kripke.Duality
import TrustLogic.Proofs.Formula.Occurrences
import TrustLogic.Proofs.Kripke.Sides
import TrustLogic.Proofs.Kripke.Classical
import TrustLogic.Proofs.Kripke.Polarity
import TrustLogic.Proofs.Kripke.TruthOrder
import TrustLogic.Proofs.Kripke.InformationOrder
import TrustLogic.Proofs.Trust.Parallel
import TrustLogic.Proofs.Trust.Rescaling
import TrustLogic.Proofs.Trust.Values
import TrustLogic.Proofs.Trust.Monotonicity
import TrustLogic.Proofs.Token.Fault
import TrustLogic.Proofs.Formula.Trail
import TrustLogic.Proofs.Formula.Notation
import TrustLogic.Proofs.Parser.Positions
import TrustLogic.Proofs.Trust.LastWrite
import TrustLogic.Proofs.Json.Numeral
import TrustLogic.Proofs.Json.Writing
import TrustLogic.Proofs.Json.Codec
import TrustLogic.Proofs.Degree.Rounding
import TrustLogic.Proofs.Degree.Digits
import TrustLogic.Proofs.Trust.ReadBack
