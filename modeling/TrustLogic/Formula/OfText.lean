import TrustLogic.Error
import TrustLogic.Parser.Combinators

/-!
# Formulas from text

A text denotes a formula when its symbols do. A fault in the order of the symbols is found at one of
them, and the stretch of the text where it stands is reported with the fault.

* `Formula.ofText` – the formula that a text denotes.
-/

namespace TrustLogic

/-- The stretch of the symbol at a position, or of the last symbol beyond them all. -/
def spanAt (ts : List Located) (pos : Nat) : Span :=
  match ts[pos]?.or ts.getLast? with
  | some t => t.span
  | none => ⟨0, 0, 0, 0⟩

/-- The formula that a text denotes, if it nests no deeper than the limit. -/
def Formula.ofText (limit : Nat) (s : String) : Except Error Formula :=
  match tokenize s with
  | .error e => .error (.lex e)
  | .ok ts =>
    match (Parser.wholeFormula limit).runAt (ts.map Located.token) 0 with
    | .ok (φ, _) => .ok φ
    | .error e => .error (.parse e (spanAt ts e.pos))

end TrustLogic
