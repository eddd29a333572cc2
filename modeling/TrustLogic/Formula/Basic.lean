/-!
# Formulas

The formulas of the logic of trust: propositional variables, negation, the two modalities, and four
binary connectives, among them a co-implication dual to the implication.

* `Unary`, `Binary` – the operators by the number of their operands, and `Operator`, either of
  them. Two of the unary operators are the modalities, `Modality`.
* `Formula` – the syntax trees.
* `Formula.depth` – the number of nodes on the longest path from the root to a leaf.
* `Formula.modalDepth` – the largest number of modalities on such a path.
* `Formula.operator?` – the operator at the root; `Formula.ofUnary?` and `Formula.ofBinary?` put one
  there.
-/

namespace TrustLogic

/-- The modalities. -/
inductive Modality
  /-- Necessity. -/
  | box
  /-- Possibility. -/
  | diamond
deriving DecidableEq, Repr

/-- The operators that stand before one operand. -/
inductive Unary
  | negation
  | modal (m : Modality)
deriving DecidableEq, Repr

/-- The operators that stand between two operands. -/
inductive Binary
  | conjunction
  | disjunction
  | implication
  /-- The dual of the implication. -/
  | coimplication
deriving DecidableEq, Repr

/-- An operator of either kind. -/
inductive Operator
  | unary (op : Unary)
  | binary (op : Binary)
deriving DecidableEq, Repr

/-- How a modality is written. -/
def Modality.symbol : Modality → String
  | box => "[]"
  | diamond => "<>"

/-- How a unary operator is written. -/
def Unary.symbol : Unary → String
  | negation => "~"
  | modal m => m.symbol

/-- How a binary operator is written. -/
def Binary.symbol : Binary → String
  | conjunction => "&"
  | disjunction => "|"
  | implication => "->"
  | coimplication => "-<"

/-- How an operator is written. -/
def Operator.symbol : Operator → String
  | unary op => op.symbol
  | binary op => op.symbol

/-- Whether the operator takes one operand only. -/
def Operator.isUnary : Operator → Bool
  | unary _ => true
  | binary _ => false

/-- A formula. The name of a variable may be any text; those that are read from text are single
letters. -/
inductive Formula
  /-- A propositional variable. -/
  | var (name : String)
  /-- A unary operator and its operand. -/
  | unary (op : Unary) (operand : Formula)
  /-- A binary operator and its operands. -/
  | binary (op : Binary) (left right : Formula)
deriving DecidableEq, Repr

namespace Formula

/-- The operator at the root, if the formula is not a variable. -/
def operator? : Formula → Option Operator
  | var _ => none
  | unary op _ => some (.unary op)
  | binary op _ _ => some (.binary op)

/-- The formula with the given operator at the root, if it is a unary one. -/
def ofUnary? : Operator → Formula → Option Formula
  | .unary op, φ => some (unary op φ)
  | .binary _, _ => none

/-- The formula with the given operator at the root, if it is a binary one. -/
def ofBinary? : Operator → Formula → Formula → Option Formula
  | .binary op, φ, ψ => some (binary op φ ψ)
  | .unary _, _, _ => none

/-- The number of nodes on the longest path from the root to a leaf. -/
def depth : Formula → Nat
  | var _ => 1
  | unary _ φ => φ.depth + 1
  | binary _ φ ψ => max φ.depth ψ.depth + 1

/-- The largest number of modalities on a path from the root to a leaf. -/
def modalDepth : Formula → Nat
  | var _ => 0
  | unary .negation φ => φ.modalDepth
  | unary (.modal _) φ => φ.modalDepth + 1
  | binary _ φ ψ => max φ.modalDepth ψ.modalDepth

theorem depth_pos (φ : Formula) : 0 < φ.depth := by
  cases φ <;> simp [depth]

end Formula

end TrustLogic
