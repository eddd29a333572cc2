import TrustLogic.Formula.Basic

/-!
# The variables of a formula

What a formula comes to depends on its variables only, and a formula can be put in the place of one
of them.

* `TrustLogic.Formula.names` – the variables, in the order in which they are read.
* `TrustLogic.Formula.substitute` – a formula in the place of a variable, which makes no formula
  less deep (`TrustLogic.Formula.depth_le_depth_substitute`).
-/

namespace TrustLogic.Formula

/-- The variables of a formula, in the order in which they are read. -/
def names : Formula → List String
  | var name => [name]
  | unary _ φ => φ.names
  | binary _ φ ψ => φ.names ++ ψ.names

/-- **The formula with another one in the place of a variable**, wherever the variable occurs. The
variables of the other one are left as they are, even if it has the same variable itself. -/
def substitute (φ : Formula) (name : String) (χ : Formula) : Formula :=
  match φ with
  | var name' => if name' = name then χ else var name'
  | unary op φ => unary op (φ.substitute name χ)
  | binary op φ ψ => binary op (φ.substitute name χ) (ψ.substitute name χ)

variable {φ : Formula}

/-- Where there is a variable, the other formula has one node at least. -/
theorem depth_le_depth_substitute (name : String) (χ : Formula) :
    φ.depth ≤ (φ.substitute name χ).depth := by
  induction φ with
  | var name' =>
    rw [substitute]
    split
    · exact χ.depth_pos
    · exact Nat.le_refl _
  | unary op φ ih => exact Nat.succ_le_succ ih
  | binary op φ ψ ihφ ihψ =>
    simp only [substitute, depth]
    omega

end TrustLogic.Formula
