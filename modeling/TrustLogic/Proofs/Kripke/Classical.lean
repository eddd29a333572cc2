import TrustLogic.Proofs.Kripke.Meaning

/-!
# Evidence without gaps and gluts

There may be evidence for a variable and against it at once, a glut, or neither, a gap. If a formula
has only variables with exactly one of the two at every world, nothing else happens to the formula
either. There is evidence for it or against it, and which of them it is says whether the formula is
true in the sense of classical logic.

* `TrustLogic.Kripke.Model.Holds` – classical truth at a world, by recursion on the formula.
* `TrustLogic.Kripke.Evidence.Settles` – evidence that is for a proposition if it is true, against
  it if it is false, and nothing more.
* `TrustLogic.Kripke.Model.Complementary` – the variables with exactly one of the two everywhere.

Every connective and either modality hands this on, though the two sides of the evidence follow
rules of their own (`TrustLogic.Kripke.Evidence.Settles.table`,
`TrustLogic.Kripke.Model.settles_modal`). At a world from which nothing is in sight it is the empty
gathering that has to be settled: what is necessary holds there, and what is possible does not.
-/

namespace TrustLogic.Kripke

/-! ### Classical truth -/

/-- **The classical truth of a formula at a world**, where a variable is true if there is evidence
for it. A conjunction is read as "or" and a disjunction as "and", as their tables have it. -/
def Model.Holds (m : Model) : Formula → Nat → Prop
  | .var name, w => m.value? .pro name w = some true
  | .unary .negation φ, w => ¬ m.Holds φ w
  | .unary (.modal .box) φ, w => ∀ v, m.sees w v = true → m.Holds φ v
  | .unary (.modal .diamond) φ, w => ∃ v, m.sees w v = true ∧ m.Holds φ v
  | .binary .conjunction φ ψ, w => m.Holds φ w ∨ m.Holds ψ w
  | .binary .disjunction φ ψ, w => m.Holds φ w ∧ m.Holds ψ w
  | .binary .implication φ ψ, w => m.Holds φ w → m.Holds ψ w
  | .binary .coimplication φ ψ, w => m.Holds φ w ∧ ¬ m.Holds ψ w

namespace Evidence

variable {a b : Evidence} {P Q : Prop}

/-- **Evidence that settles a proposition**: it is for it, and not against it, if the proposition is
true, and the other way round if it is false. -/
structure Settles (a : Evidence) (P : Prop) : Prop where
  pro_iff : a.pro = true ↔ P
  con_iff : a.con = true ↔ ¬ P

/-- There is then exactly one side on which there is evidence. -/
theorem Settles.con_eq (h : a.Settles P) : a.con = !a.pro := by
  rw [Bool.eq_iff_iff, Bool.not_eq_true', ← Bool.not_eq_true, h.con_iff, h.pro_iff]

theorem Settles.negation (h : a.Settles P) : a.negation.Settles (¬ P) where
  pro_iff := h.con_iff
  con_iff := h.pro_iff.trans not_not.symm

/-- **The connectives settle what they are classically read as.** -/
theorem Settles.table (ha : a.Settles P) (hb : b.Settles Q) (op : Binary) :
    (Evidence.table op a b).Settles (match op with
      | .conjunction => P ∨ Q
      | .disjunction => P ∧ Q
      | .implication => P → Q
      | .coimplication => P ∧ ¬ Q) := by
  obtain ⟨pro, con⟩ := a
  obtain ⟨pro', con'⟩ := b
  obtain rfl : con = !pro := ha.con_eq
  obtain rfl : con' = !pro' := hb.con_eq
  obtain rfl : (pro = true) = P := propext ha.pro_iff
  obtain rfl : (pro' = true) = Q := propext hb.pro_iff
  constructor <;> cases op <;> cases pro <;> cases pro' <;> decide

end Evidence

/-! ### Formulas -/

namespace Model

variable {m : Model} {φ ψ : Formula} {w : Nat}

/-- **A modality settles what it is classically read as**, if its operand is settled at every world
in sight. -/
theorem settles_modal (hm : m.WellShaped)
    (h : ∀ v, m.sees w v = true → (m.meaning φ v).Settles (m.Holds φ v)) (op : Modality) :
    (m.meaning (.unary (.modal op) φ) w).Settles (m.Holds (.unary (.modal op) φ) w) := by
  cases op with
  | box =>
    constructor
    · rw [meaning, List.all_eq_true, Holds]
      refine forall_congr' fun v => ?_
      rw [hm.mem_inSight_iff]
      exact imp_congr_right fun hv => (h v hv).pro_iff
    · rw [meaning, List.any_eq_true, Holds, not_forall]
      refine exists_congr fun v => ?_
      rw [hm.mem_inSight_iff, Classical.not_imp]
      exact and_congr_right fun hv => (h v hv).con_iff
  | diamond =>
    constructor
    · rw [meaning, List.any_eq_true, Holds]
      refine exists_congr fun v => ?_
      rw [hm.mem_inSight_iff]
      exact and_congr_right fun hv => (h v hv).pro_iff
    · rw [meaning, List.all_eq_true, Holds, not_exists]
      refine forall_congr' fun v => ?_
      rw [hm.mem_inSight_iff, not_and]
      exact imp_congr_right fun hv => (h v hv).con_iff

/-- **The tables are complementary in a variable**: both of them have it, and at every world there
is evidence against it exactly if there is none for it. -/
structure Complementary (m : Model) (name : String) : Prop where
  mem : ∀ s, name ∈ m.table s
  con_eq : ∀ w < m.worlds, m.value? .con name w = (m.value? .pro name w).map not

theorem Complementary.settles (hm : m.WellShaped) {name : String} (h : m.Complementary name)
    (hw : w < m.worlds) : (m.meaning (.var name) w).Settles (m.Holds (.var name) w) := by
  have hentry : m.value? .pro name w ≠ none := by
    rw [Ne, hm.value?_eq_none_iff .pro name hw, not_not]
    exact h.mem .pro
  obtain ⟨b, hb⟩ := Option.ne_none_iff_exists'.mp hentry
  have hcon := h.con_eq w hw
  rw [hb] at hcon
  constructor <;> simp [meaning, Holds, hb, hcon]

/-- **A formula is settled** by the evidence for it, if its variables are complementary. -/
theorem settles_meaning (hm : m.WellShaped) (hφ : ∀ name ∈ φ.names, m.Complementary name)
    (hw : w < m.worlds) : (m.meaning φ w).Settles (m.Holds φ w) := by
  induction φ generalizing w with
  | var name => exact (hφ name (List.mem_singleton_self name)).settles hm hw
  | unary op φ ih =>
    cases op with
    | negation => exact (ih hφ hw).negation
    | modal op => exact settles_modal hm (fun v hv => ih hφ (hm.lt_of_sees hv)) op
  | binary op φ ψ ihφ ihψ =>
    have hleft := ihφ (fun name hname => hφ name (List.mem_append_left _ hname)) hw
    have hright := ihψ (fun name hname => hφ name (List.mem_append_right _ hname)) hw
    have htable := hleft.table hright op
    cases op <;> exact htable

/-- **Without gaps and gluts the logic is classical.** In a model that comes about, let both tables
have the variables of a formula, with evidence against each of them exactly where there is none for
it. At every world the formula then evaluates to evidence on one side only, and this is the side
for it exactly if the formula is true there in the sense of classical logic. -/
theorem evaluate_complementary (hm : m.Reachable) (hφ : ∀ name ∈ φ.names, m.Complementary name)
    {limit : Nat} (hlimit : φ.depth ≤ limit) (hw : w < m.worlds) :
    ∃ b : Bool, m.evaluate limit φ w = .ok ⟨b, !b⟩ ∧ (b = true ↔ m.Holds φ w) := by
  have hshape := hm.wellShaped
  have hdefined : m.Defines φ := fun name hname => (hφ name hname).mem
  have hsettled := settles_meaning hshape hφ hw
  refine ⟨(m.meaning φ w).pro, ?_, hsettled.pro_iff⟩
  rw [hshape.evaluate_eq_ok hdefined hlimit hw, ← hsettled.con_eq]

/-- Two worlds, of which the first sees both and the second sees none. There is a glut of `r`. -/
def oneSighted : Draft :=
  .ofCalls 2 [.relation [[1, 1], [0, 0]], .values .pro "p" [0, 1], .values .con "p" [1, 0],
    .values .pro "q" [0, 0], .values .con "q" [1, 1], .values .pro "r" [1, 1],
    .values .con "r" [1, 1]]

/-- That it is necessary that `p` but not possibly `q`. -/
def necessarilyApart : Formula :=
  .unary (.modal .box) (.binary .coimplication (.var "p") (.unary (.modal .diamond) (.var "q")))

/-- The formula fails at the first world, where `p` does, and holds at the second, from which
nothing is in sight. The variable that it does not have may well have evidence on both sides. -/
theorem evaluate_complementary_oneSighted :
    ∃ m, oneSighted.build = .ok m ∧
      (∀ name ∈ necessarilyApart.names, m.Complementary name) ∧ ¬ m.Complementary "r" ∧
      m.evaluate 4 necessarilyApart 0 = .ok ⟨false, true⟩ ∧ ¬ m.Holds necessarilyApart 0 ∧
      m.evaluate 4 necessarilyApart 1 = .ok ⟨true, false⟩ ∧ m.Holds necessarilyApart 1 := by
  have hbuild : oneSighted.build = .ok oneSighted.model := Draft.build_eq_ok_iff.mpr ⟨rfl, rfl⟩
  have hworld (w : Nat) (hw : w < oneSighted.model.worlds) : w = 0 ∨ w = 1 := by
    change w < 2 at hw
    omega
  have hcomplementary : ∀ name ∈ necessarilyApart.names, oneSighted.model.Complementary name := by
    intro name hname
    rcases List.mem_pair.mp hname with rfl | rfl
    all_goals
      refine ⟨fun s => by cases s <;> rfl, fun w hw => ?_⟩
      rcases hworld w hw with rfl | rfl <;> rfl
  have hglut : ¬ oneSighted.model.Complementary "r" :=
    fun h => absurd (h.con_eq 0 Nat.zero_lt_two) (by decide)
  have hfirst : oneSighted.model.evaluate 4 necessarilyApart 0 = .ok ⟨false, true⟩ := rfl
  have hsecond : oneSighted.model.evaluate 4 necessarilyApart 1 = .ok ⟨true, false⟩ := rfl
  refine ⟨_, hbuild, hcomplementary, hglut, hfirst, ?_, hsecond, ?_⟩
  · obtain ⟨b, hb, hholds⟩ := evaluate_complementary (.built hbuild) hcomplementary
      (Nat.le_refl 4) Nat.zero_lt_two
    cases hfirst.symm.trans hb
    exact mt hholds.mpr Bool.false_ne_true
  · obtain ⟨b, hb, hholds⟩ := evaluate_complementary (.built hbuild) hcomplementary
      (Nat.le_refl 4) Nat.one_lt_two
    cases hsecond.symm.trans hb
    exact hholds.mp rfl

end Model

end TrustLogic.Kripke
