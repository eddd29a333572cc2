import TrustLogic.Formula.Basic

/-!
# Evidence for and against

At a world of a Kripke model there may be evidence for a formula, evidence against it, both or
neither. The connectives work on the two sides separately.

* `Evidence` – a pair of truth values, one for each side.
* `Evidence.negation` and so on – the connectives; `Evidence.binary` gives those of two
  operands by operator.
* `Evidence.gather`, `Evidence.overNone` – how a modality gathers the evidence at several worlds,
  and what it finds at no world at all.
-/

namespace TrustLogic.Kripke

/-- The two sides of evidence. -/
inductive Side
  /-- Evidence for. -/
  | pro
  /-- Evidence against. -/
  | con
deriving DecidableEq, Repr

/-- The name of the table that records the evidence of a side. -/
def Side.tableName : Side → String
  | pro => "valuation1"
  | con => "valuation2"

/-- Evidence for and against a formula at a world. -/
structure Evidence where
  /-- Whether there is evidence for the formula. -/
  pro : Bool
  /-- Whether there is evidence against it. -/
  con : Bool
deriving DecidableEq, Repr

namespace Evidence

/-- Evidence for a negation is evidence against its operand, and conversely. -/
def negation (a : Evidence) : Evidence := ⟨a.con, a.pro⟩

/-- There is evidence for a conjunction where there is some for either operand, and against it where
there is some against both. -/
def conjunction (a b : Evidence) : Evidence := ⟨a.pro || b.pro, a.con && b.con⟩

/-- There is evidence for a disjunction where there is some for both operands, and against it where
there is some against either. -/
def disjunction (a b : Evidence) : Evidence := ⟨a.pro && b.pro, a.con || b.con⟩

/-- There is evidence for an implication unless there is some for its left side and none for its
right side, and against it where there is some against the right side and none against the left. -/
def implication (a b : Evidence) : Evidence := ⟨!a.pro || b.pro, !a.con && b.con⟩

/-- There is evidence for a co-implication where there is some for its left side and none for its
right side, and against it unless there is some against the right side and none against the left. -/
def coimplication (a b : Evidence) : Evidence := ⟨a.pro && !b.pro, a.con || !b.con⟩

/-- Evidence at two worlds for what has to hold at both. -/
def meet (a b : Evidence) : Evidence := ⟨a.pro && b.pro, a.con || b.con⟩

/-- Evidence at two worlds for what has to hold at either. -/
def join (a b : Evidence) : Evidence := ⟨a.pro || b.pro, a.con && b.con⟩

/-- How a modality gathers the evidence at two worlds. -/
def gather : Modality → Evidence → Evidence → Evidence
  | .box => meet
  | .diamond => join

/-- The evidence that a modality finds at no world at all. -/
def overNone : Modality → Evidence
  | .box => ⟨true, false⟩
  | .diamond => ⟨false, true⟩

/-- What a binary operator makes of the evidence for its operands. -/
def binary : Binary → Evidence → Evidence → Evidence
  | .conjunction => conjunction
  | .disjunction => disjunction
  | .implication => implication
  | .coimplication => coimplication

/-- A truth value as a digit. -/
def bitText (b : Bool) : String := if b then "1" else "0"

/-- Evidence as a pair of digits. -/
def text (a : Evidence) : String := "(" ++ bitText a.pro ++ ", " ++ bitText a.con ++ ")"

end Evidence

end TrustLogic.Kripke
