import TrustLogic.Kripke.Model

/-!
# Evidence for formulas

The evidence for a formula is found at all worlds of a model at once: a modality then needs the
evidence for its operand at the worlds in sight, which is at hand. Two things can go wrong on the
way, a formula that nests too deep and a variable without an entry; the first one met in reading
the formula from left to right is reported, whatever the values and the relation.

* `EvalError` – what can go wrong.
* `Model.evidenceAt` – the evidence for a variable at a world.
* `Model.evidence` – the evidence for a formula at all worlds, with a limit on its nesting.
* `Model.evaluate` – the evidence for a formula at one world.
-/

namespace TrustLogic.Kripke

/-- Why there is no evidence for a formula at a world, nor lack of it. -/
inductive EvalError
  /-- A table has no entry for the variable at some world. -/
  | noVariable (name : String) (side : Side)
  /-- There is no such world. -/
  | noWorld (world worlds : Nat)
  /-- The formula nests deeper than the limit. -/
  | tooDeep (limit : Nat)
deriving DecidableEq, Repr

/-- The fault as a message. -/
def EvalError.message : EvalError → String
  | noVariable name side => s!"Unknown variable: '{name}' is not defined in {side.tableName}"
  | noWorld world worlds => s!"World out of range: world {world} in a model of {worlds} worlds"
  | tooDeep limit => s!"Formula nesting exceeds the maximum depth of {limit}"

namespace Model

/-- The evidence for a variable at a world. -/
def evidenceAt (m : Model) (name : String) (w : Nat) : Except EvalError Evidence :=
  match m.value? .pro name w with
  | none => .error (.noVariable name .pro)
  | some pro =>
    match m.value? .con name w with
    | none => .error (.noVariable name .con)
    | some con => .ok ⟨pro, con⟩

/-- What a unary operator makes of the evidence for its operand at all worlds. A modality gathers at
each world the evidence at the worlds in sight. -/
def unary (m : Model) : Unary → List Evidence → List Evidence
  | .negation, all => all.map Evidence.negation
  | .modal op, all =>
    (List.range m.worlds).map fun v =>
      ((m.successors v).filterMap fun w => all[w]?).foldl (Evidence.gather op)
        (Evidence.overNone op)

/-- **The evidence for a formula** at all worlds, with the given number of levels left to nest. The
limit is only needed for the message. -/
def evidence (m : Model) (limit : Nat) : Nat → Formula → Except EvalError (List Evidence)
  | 0, _ => .error (.tooDeep limit)
  | _ + 1, .var name => (List.range m.worlds).mapM (m.evidenceAt name)
  | room + 1, .unary op φ => (m.evidence limit room φ).map (m.unary op)
  | room + 1, .binary op φ ψ =>
    (m.evidence limit room φ).bind fun left =>
      (m.evidence limit room ψ).map fun right => List.zipWith (Evidence.binary op) left right

/-- The evidence for a formula at a world. -/
def evaluate (m : Model) (limit : Nat) (φ : Formula) (w : Nat) : Except EvalError Evidence :=
  if w < m.worlds then
    (m.evidence limit limit φ).bind fun all =>
      match all[w]? with
      | some a => .ok a
      | none => .error (.noWorld w m.worlds)
  else .error (.noWorld w m.worlds)

end Model

end TrustLogic.Kripke
