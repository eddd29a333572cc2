import TrustLogic.Formula.Basic
import TrustLogic.Trust.Frame

/-!
# Degrees of formulas

An agent holds a formula to a degree. For a modality the degrees at the agents it trusts count: a
possible formula is held to the highest of them, each capped by the trust in its agent, and a
necessary one to the lowest of them, where an agent whose degree reaches the trust in it counts to
the full. Trust that nobody receives is a fault and not a degree.

* `EvalError` – what can go wrong.
* `weigh`, `gather` – how a modality weighs a trusted agent and gathers the weighed degrees.
* `Frame.evaluate` – the degree of a formula at an agent, with a limit on its nesting.
-/

namespace TrustLogic.Trust

/-- Why a formula has no degree at an agent. -/
inductive EvalError
  /-- A modality meets an agent that trusts no one. -/
  | noTrust (agent : String)
  /-- The formula nests deeper than the limit. -/
  | tooDeep (limit : Nat)
deriving DecidableEq, Repr

/-- The fault as a message. -/
def EvalError.message : EvalError → String
  | noTrust agent => s!"Empty relation: agent '{agent}' has no trusted agents"
  | tooDeep limit => s!"Formula nesting exceeds the maximum depth of {limit}"

/-- What the degree at a trusted agent counts for. -/
def weigh : Modality → (trust degree : Degree) → Degree
  | .box, trust, degree => if trust.le degree then Degree.one else degree
  | .diamond, trust, degree => trust.min degree

/-- What two weighed degrees come to. -/
def gather : Modality → Degree → Degree → Degree
  | .box => Degree.min
  | .diamond => Degree.max

/-- What weighed degrees come to, one at least being needed. -/
def gatherAll (op : Modality) (agent : String) : List Degree → Except EvalError Degree
  | [] => .error (.noTrust agent)
  | x :: xs => .ok (xs.foldl (gather op) x)

/-- What a binary operator makes of the degrees of its operands. -/
def binary : Binary → Degree → Degree → Degree
  | .conjunction => Degree.conjunction
  | .disjunction => Degree.disjunction
  | .implication => Degree.implication
  | .coimplication => Degree.coimplication

namespace Frame

/-- What a modality comes to at an agent, when `degreeAt` gives the degree of its operand at any
agent. -/
def modal (f : Frame) (op : Modality) (degreeAt : String → Except EvalError Degree)
    (agent : String) : Except EvalError Degree :=
  ((f.trusted agent).mapM fun entry => (degreeAt entry.1).map (weigh op entry.2)).bind
    (gatherAll op agent)

/-- **The degree of a formula** at an agent, with the given number of levels left to nest. The limit
is only needed for the message. -/
def degreeOf (f : Frame) (limit : Nat) : Nat → Formula → String → Except EvalError Degree
  | 0, _, _ => .error (.tooDeep limit)
  | _ + 1, .var name, agent => .ok (f.degree name agent)
  | room + 1, .unary .negation φ, agent => (f.degreeOf limit room φ agent).map Degree.negation
  | room + 1, .unary (.modal op) φ, agent => f.modal op (f.degreeOf limit room φ) agent
  | room + 1, .binary op φ ψ, agent =>
    (f.degreeOf limit room φ agent).bind fun left =>
      (f.degreeOf limit room ψ agent).map (binary op left)

/-- The degree of a formula at an agent. -/
def evaluate (f : Frame) (limit : Nat) (φ : Formula) (agent : String) : Except EvalError Degree :=
  f.degreeOf limit limit φ agent

end Frame

end TrustLogic.Trust
