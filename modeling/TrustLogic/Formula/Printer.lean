import TrustLogic.Formula.Basic
import TrustLogic.Text.Quoted

/-!
# Formulas as text

A formula is shown in three ways.

* `Formula.render` – the notation that is also read: a unary operator directly before its operand,
  a binary operator between its operands with a space on either side, and parentheses around every
  binary formula.
* `Formula.outline` – the structure on one line, every node by the name of its kind.
* `Formula.tree` – the same structure with one node to a line, indented by four spaces a level.

The notation is defined by the characters that it puts in front of a given text, which is the form
that reading back is about; `renderOnto_append` says that what follows does not matter.
-/

namespace TrustLogic

/-- The name of a unary operator's node in an outline. -/
def Unary.nodeName : Unary → String
  | negation => "Negation"
  | modal .box => "BoxModality"
  | modal .diamond => "DiamondModality"

/-- The name of a binary operator's node in an outline. -/
def Binary.nodeName : Binary → String
  | conjunction => "Conjunction"
  | disjunction => "Disjunction"
  | implication => "Implication"
  | coimplication => "Coimplication"

namespace Formula

/-! ### The notation that is read -/

/-- The notation of a formula, in front of the given text. -/
def renderOnto : Formula → List Char → List Char
  | var name, rest => name.toList ++ rest
  | unary op φ, rest => op.symbol.toList ++ renderOnto φ rest
  | binary op φ ψ, rest =>
    '(' :: renderOnto φ (' ' :: (op.symbol.toList ++ ' ' :: renderOnto ψ (')' :: rest)))

/-- The notation of a formula. -/
def render (φ : Formula) : String :=
  String.ofList (φ.renderOnto [])

theorem renderOnto_append (φ : Formula) (rest more : List Char) :
    φ.renderOnto (rest ++ more) = φ.renderOnto rest ++ more := by
  induction φ generalizing rest with
  | var name => simp only [renderOnto, List.append_assoc]
  | unary op φ ih => simp only [renderOnto, ih, List.append_assoc]
  | binary op φ ψ ihφ ihψ =>
    simp only [renderOnto, ← ihφ, ← ihψ, List.append_assoc, List.cons_append]

/-! ### The structure on one line -/

/-- The structure of a formula on one line. -/
def outline : Formula → String
  | var name => "Variable(" ++ quote name ++ ")"
  | unary op φ => op.nodeName ++ "(" ++ φ.outline ++ ")"
  | binary op φ ψ =>
    op.nodeName ++ " \x7b left: " ++ φ.outline ++ ", right: " ++ ψ.outline ++ " \x7d"

/-! ### The structure with one node to a line -/

/-- A text continued on a new line of the given level. -/
def continued (text : String) (level : Nat) : String :=
  text ++ "\n" ++ String.ofList (List.replicate (4 * level) ' ')

/-- A text continued by the tree of a formula whose root stands at the given level. -/
def treeAfter (text : String) (level : Nat) : Formula → String
  | var name =>
    continued (continued (text ++ "Variable(") (level + 1) ++ quote name ++ ",") level ++ ")"
  | unary op φ =>
    continued (treeAfter (continued (text ++ op.nodeName ++ "(") (level + 1)) (level + 1) φ ++ ",")
      level ++ ")"
  | binary op φ ψ =>
    let left := continued (text ++ op.nodeName ++ " \x7b") (level + 1) ++ "left: "
    let right := continued (treeAfter left (level + 1) φ ++ ",") (level + 1) ++ "right: "
    continued (treeAfter right (level + 1) ψ ++ ",") level ++ "\x7d"

/-- The structure of a formula with one node to a line. -/
def tree (φ : Formula) : String :=
  treeAfter "" 0 φ

end Formula

end TrustLogic
