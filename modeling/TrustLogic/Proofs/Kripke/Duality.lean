import TrustLogic.Proofs.Kripke.Meaning

/-!
# The dual of a formula

Negating a formula exchanges the evidence for it and the evidence against it. The same comes about
if the negation is pushed down to the variables: conjunctions and disjunctions change places, so do
the modalities, and an implication becomes a co-implication of the duals, with its sides exchanged.

* `TrustLogic.Formula.dual` – the dual, which is at most one level deeper than the formula
  (`TrustLogic.Formula.depth_dual_le`), as a variable becomes its negation and a negation goes.
* `TrustLogic.Kripke.Model.meaning_dual` – the evidence for it, at every world of every model.

No connective treats the two sides of the evidence alike, so this is a law for each of them
(`TrustLogic.Kripke.Evidence.negation_table`, `TrustLogic.Kripke.Model.meaning_modal_negation`). The
modalities obey theirs at a world from which nothing is in sight too: what the one finds there is
the exchange of what the other finds.
-/

namespace TrustLogic

/-! ### Duals -/

/-- The other modality. -/
def Modality.dual : Modality → Modality
  | box => diamond
  | diamond => box

namespace Formula

/-- **The dual of a formula**: the negation of the formula, pushed down to its variables. -/
def dual : Formula → Formula
  | var name => unary .negation (var name)
  | unary .negation φ => φ
  | unary (.modal op) φ => unary (.modal op.dual) φ.dual
  | binary .conjunction φ ψ => binary .disjunction φ.dual ψ.dual
  | binary .disjunction φ ψ => binary .conjunction φ.dual ψ.dual
  | binary .implication φ ψ => binary .coimplication ψ.dual φ.dual
  | binary .coimplication φ ψ => binary .implication ψ.dual φ.dual

/-- Only the negations before the variables can make the dual deeper. -/
theorem depth_dual_le (φ : Formula) : φ.dual.depth ≤ φ.depth + 1 := by
  induction φ with
  | var name => exact Nat.le_refl 2
  | unary op φ ih =>
    cases op with
    | negation =>
      simp only [dual, depth]
      omega
    | modal op => exact Nat.succ_le_succ ih
  | binary op φ ψ ihφ ihψ =>
    cases op <;> simp only [dual, depth] <;> omega

/-- The dual has the variables of the formula, though it may have them in another order. -/
theorem mem_names_dual_iff {φ : Formula} {name : String} :
    name ∈ φ.dual.names ↔ name ∈ φ.names := by
  induction φ with
  | var name' => rfl
  | unary op φ ih =>
    cases op with
    | negation => rfl
    | modal op => exact ih
  | binary op φ ψ ihφ ihψ =>
    cases op <;> simp only [dual, names, List.mem_append, ihφ, ihψ, or_comm]

end Formula

/-! ### The evidence -/

namespace Kripke

/-- **The laws of the connectives**: a table with both operands and the result exchanged is the
table of the dual connective. -/
theorem Evidence.negation_table (op : Binary) (a b : Evidence) :
    (Evidence.table op a b).negation = match op with
      | .conjunction => Evidence.table .disjunction a.negation b.negation
      | .disjunction => Evidence.table .conjunction a.negation b.negation
      | .implication => Evidence.table .coimplication b.negation a.negation
      | .coimplication => Evidence.table .implication b.negation a.negation := by
  rcases a with ⟨_ | _, _ | _⟩ <;> rcases b with ⟨_ | _, _ | _⟩ <;> cases op <;> rfl

namespace Model

variable {m : Model}

theorem meaning_negation (φ : Formula) (w : Nat) :
    m.meaning (.unary .negation φ) w = (m.meaning φ w).negation := rfl

/-- **The law of the modalities**, however many worlds are in sight. -/
theorem meaning_modal_negation {φ ψ : Formula} (h : ∀ v, m.meaning ψ v = (m.meaning φ v).negation)
    (op : Modality) (w : Nat) :
    m.meaning (.unary (.modal op.dual) ψ) w
      = (m.meaning (.unary (.modal op) φ) w).negation := by
  cases op <;> simp only [Modality.dual, meaning, h, Evidence.negation]

/-- **The evidence for the dual** is the evidence for the formula with its sides exchanged. -/
theorem meaning_dual (φ : Formula) (w : Nat) : m.meaning φ.dual w = (m.meaning φ w).negation := by
  induction φ generalizing w with
  | var name => rfl
  | unary op φ ih =>
    cases op with
    | negation => rfl
    | modal op => exact meaning_modal_negation ih op w
  | binary op φ ψ ihφ ihψ =>
    rw [meaning, Evidence.negation_table]
    cases op <;> simp only [Formula.dual, meaning, ihφ, ihψ]

theorem Defines.dual {φ : Formula} (h : m.Defines φ) : m.Defines φ.dual :=
  fun name hname => h name (Formula.mem_names_dual_iff.mp hname)

/-- **A negation can be pushed down to the variables.** In a model that comes about, and under a
limit that is higher than the formula is deep, the negation of a formula and its dual evaluate to
the same evidence at every world, whatever is in sight of it, if both tables have the variables of
the formula. Two negations before a formula change nothing, be the result evidence or a fault. -/
theorem evaluate_dual (hm : m.Reachable) (φ : Formula) (limit w : Nat) :
    (m.Defines φ → φ.depth + 1 ≤ limit → w < m.worlds →
      ∃ a, m.evaluate limit (.unary .negation φ) w = .ok a ∧ m.evaluate limit φ.dual w = .ok a) ∧
    (φ.depth + 2 ≤ limit →
      m.evaluate limit (.unary .negation (.unary .negation φ)) w = m.evaluate limit φ w) := by
  have hshape := hm.wellShaped
  constructor
  · intro hφ hlimit hw
    have hnegation : m.Defines (.unary .negation φ) := hφ
    refine ⟨_, hshape.evaluate_eq_ok hnegation hlimit hw, ?_⟩
    have hdepth : φ.dual.depth ≤ limit := Nat.le_trans φ.depth_dual_le hlimit
    rw [hshape.evaluate_eq_ok hφ.dual hdepth hw, meaning_dual, meaning_negation]
  · intro hlimit
    rcases Nat.lt_or_ge w m.worlds with hw | hw
    · have hdepth : φ.depth ≤ limit := Nat.le_trans (Nat.le_add_right _ 2) hlimit
      rw [hshape.evaluate_of_lt _ _ hw, hshape.evaluate_of_lt _ _ hw,
        firstFault?_of_depth_le hlimit, firstFault?_of_depth_le hdepth]
      rfl
    · rw [evaluate_of_le hw, evaluate_of_le hw]

/-- A world that sees another one, from which nothing is in sight. -/
def blindAlley : Draft :=
  .ofCalls 2 [.relation [[0, 1], [0, 0]], .values .pro "p" [0, 1], .values .con "p" [1, 0],
    .values .pro "q" [0, 0], .values .con "q" [1, 1]]

/-- The necessity of an implication. -/
def necessarily : Formula :=
  .unary (.modal .box) (.binary .implication (.var "p") (.var "q"))

/-- The dual says that the co-implication of the negations, the other way round, is possible. It
evaluates to what the negation does: to evidence for it at the first world, and to evidence against
it at the second, from which nothing is in sight. -/
theorem evaluate_dual_necessarily :
    necessarily.dual = .unary (.modal .diamond) (.binary .coimplication
      (.unary .negation (.var "q")) (.unary .negation (.var "p"))) ∧
    ∃ m, blindAlley.build = .ok m ∧
      m.evaluate 4 (.unary .negation necessarily) 0 = .ok ⟨true, false⟩ ∧
      m.evaluate 4 necessarily.dual 0 = .ok ⟨true, false⟩ ∧
      m.evaluate 4 (.unary .negation necessarily) 1 = .ok ⟨false, true⟩ ∧
      m.evaluate 4 necessarily.dual 1 = .ok ⟨false, true⟩ ∧
      m.evaluate 5 (.unary .negation (.unary .negation necessarily)) 0
        = m.evaluate 5 necessarily 0 := by
  have hbuild : blindAlley.build = .ok blindAlley.model := Draft.build_eq_ok_iff.mpr ⟨rfl, rfl⟩
  have hdefined : blindAlley.model.Defines necessarily := by
    intro name hname s
    rcases List.mem_pair.mp hname with rfl | rfl <;> cases s <;> rfl
  -- what the negations come to is computed, and what the duals come to follows from the theorem
  have hfirst : blindAlley.model.evaluate 4 (.unary .negation necessarily) 0
      = .ok ⟨true, false⟩ := rfl
  have hsecond : blindAlley.model.evaluate 4 (.unary .negation necessarily) 1
      = .ok ⟨false, true⟩ := rfl
  have hdual (w : Nat) (hw : w < 2) :
      blindAlley.model.evaluate 4 necessarily.dual w
        = blindAlley.model.evaluate 4 (.unary .negation necessarily) w := by
    obtain ⟨a, hnegation, hdual⟩ :=
      (evaluate_dual (.built hbuild) necessarily 4 w).1 hdefined (Nat.le_refl 4) hw
    rw [hnegation, hdual]
  refine ⟨rfl, _, hbuild, hfirst, ?_, hsecond, ?_, ?_⟩
  · rw [hdual 0 Nat.zero_lt_two, hfirst]
  · rw [hdual 1 Nat.one_lt_two, hsecond]
  · exact (evaluate_dual (.built hbuild) necessarily 5 0).2 (Nat.le_refl 5)

end Model

end Kripke

end TrustLogic
