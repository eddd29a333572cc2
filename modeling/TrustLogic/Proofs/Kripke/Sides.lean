import Mathlib.Algebra.Group.Nat.Even
import TrustLogic.Proofs.Formula.Occurrences
import TrustLogic.Proofs.Kripke.Substitution

/-!
# The two sides of evidence

Evidence for a formula is one thing and evidence against it another. A negation exchanges the two,
and nothing else lets what is known on the one side have an effect on the other. What a formula
comes to on a side is therefore found from the entries on that side for its variables under an even
number of negations, and from those on the other side for its variables under an odd number.

* `TrustLogic.Kripke.Side.under` – the side whose entries count under so many negations.
* `TrustLogic.Kripke.Model.AgreeFor` – two models have the same entries wherever they count for a
  side of a formula. They may differ in all the others, those of the same variables included.

The binary operators keep the sides apart (`TrustLogic.Kripke.Evidence.on_binary_congr`), and so do
the modalities (`TrustLogic.Kripke.Model.map_on_modal_congr`). From this it follows for all formulas
(`TrustLogic.Kripke.Model.on_meaning_congr`).
-/

namespace TrustLogic

/-- A negation exchanges the sides of what it stands before, and nothing else does. -/
def Operand.exchanges : Operand → Bool
  | .only .negation => true
  | _ => false

namespace Kripke

/-- The other side. -/
def Side.opposite : Side → Side
  | pro => con
  | con => pro

/-- **The side that counts** under so many negations, when the formula is asked for a side. -/
def Side.under (s : Side) (n : Nat) : Side :=
  if Even n then s else s.opposite

theorem Side.opposite_opposite (s : Side) : s.opposite.opposite = s := by
  cases s <;> rfl

theorem Side.under_succ (s : Side) (n : Nat) : s.under (n + 1) = (s.under n).opposite := by
  by_cases h : Even n <;> simp [under, Nat.even_add_one, h, opposite_opposite]

/-! ### Connectives -/

namespace Evidence

variable {a a' b b' : Evidence} {s : Side}

theorem on_negation (a : Evidence) (s : Side) : a.negation.on s = a.on s.opposite := by
  cases s <;> rfl

/-- **A binary operator keeps the sides apart.** -/
theorem on_binary_congr (ha : a.on s = a'.on s) (hb : b.on s = b'.on s) (op : Binary) :
    (binary op a b).on s = (binary op a' b').on s := by
  cases s <;> simp only [on] at ha hb <;>
    cases op <;>
    simp only [binary, conjunction, disjunction, implication, coimplication, on, ha, hb]

theorem on_gather_congr (ha : a.on s = a'.on s) (hb : b.on s = b'.on s) (op : Modality) :
    (gather op a b).on s = (gather op a' b').on s := by
  cases s <;> simp only [on] at ha hb <;> cases op <;> simp only [gather, meet, join, on, ha, hb]

/-- Gathering evidence keeps the sides apart, however much there is to gather. -/
theorem on_foldl_gather_congr {all all' : List Evidence} (op : Modality)
    (hall : all.map (·.on s) = all'.map (·.on s)) (ha : a.on s = a'.on s) :
    (all.foldl (gather op) a).on s = (all'.foldl (gather op) a').on s := by
  induction all generalizing all' a a' with
  | nil =>
    obtain rfl : all' = [] := List.map_eq_nil_iff.mp hall.symm
    exact ha
  | cons b all ih =>
    rcases all' with _ | ⟨b', all'⟩
    · exact absurd hall (List.cons_ne_nil _ _)
    · obtain ⟨hb, hrest⟩ := List.cons_eq_cons.mp hall
      rw [List.foldl_cons, List.foldl_cons]
      exact ih hrest (on_gather_congr ha hb op)

end Evidence

/-! ### Formulas -/

namespace Model

variable {m m' : Model} {s : Side} {φ : Formula}

/-- **A modality keeps the sides apart**: on a side it only asks for the evidence of that side at
the worlds in sight. -/
theorem map_on_modal_congr {all all' : List Evidence}
    (hall : all.map (·.on s) = all'.map (·.on s)) (m : Model) (op : Modality) :
    (m.unary (.modal op) all).map (·.on s) = (m.unary (.modal op) all').map (·.on s) := by
  rw [unary, unary, List.map_map, List.map_map]
  refine List.map_congr_left fun v _ => Evidence.on_foldl_gather_congr op ?_ rfl
  -- looking up worlds does not depend on the other side either
  have hlookup (w : Nat) : all[w]?.map (·.on s) = all'[w]?.map (·.on s) := by
    rw [← List.getElem?_map, ← List.getElem?_map, hall]
  rw [List.map_filterMap, List.map_filterMap]
  simp only [hlookup]

/-- **Two models agree for a side of a formula**, which stands under so many negations: they have
the same entries wherever the formula asks for one, each time on the side that counts there. -/
def AgreeFor (m m' : Model) (s : Side) (n : Nat) (φ : Formula) : Prop :=
  ∀ name k, (k, .var name) ∈ φ.occurrences Operand.exchanges n →
    ∀ w < m.worlds, m.value? (s.under k) name w = m'.value? (s.under k) name w

theorem unary_congr (hworlds : m.worlds = m'.worlds) (hrelation : m.relation = m'.relation)
    (op : Unary) : m.unary op = m'.unary op := by
  funext all
  cases op <;> simp only [unary, successors, hworlds, hrelation]

theorem on_meaning_var (m : Model) (name : String) (w : Nat) (s : Side) :
    (m.meaning (.var name) w).on s = (m.value? s name w).getD false := by
  cases s <;> rfl

/-- **The evidence of a side** is the same in two models that agree for that side of the formula.
Under one negation more it is the other side that counts, and this is also the side that the
negation asks for. -/
theorem on_meaning_congr (hm : m.WellShaped) (hm' : m'.WellShaped)
    (hworlds : m.worlds = m'.worlds) (hrelation : m.relation = m'.relation) {n : Nat}
    (h : m.AgreeFor m' s n φ) {w : Nat} (hw : w < m.worlds) :
    (m.meaning φ w).on (s.under n) = (m'.meaning φ w).on (s.under n) := by
  induction φ generalizing n w with
  | var name =>
    rw [on_meaning_var, on_meaning_var, h name n (List.mem_singleton_self _) w hw]
  | unary op φ ih =>
    have hφ : m.AgreeFor m' s (n + (Operand.exchanges (.only op)).toNat) φ :=
      fun name k hk => h name k (Formula.mem_occurrences_unary hk)
    cases op with
    | negation =>
      have hopposite := ih hφ hw
      rw [Operand.exchanges, Bool.toNat_true, Side.under_succ] at hopposite
      rwa [← Evidence.on_negation, ← Evidence.on_negation] at hopposite
    | modal op =>
      have hoperand : ((List.range m.worlds).map (m.meaning φ)).map (·.on (s.under n))
          = ((List.range m.worlds).map (m'.meaning φ)).map (·.on (s.under n)) := by
        rw [List.map_map, List.map_map]
        exact List.map_congr_left fun v hv => ih hφ (List.mem_range.mp hv)
      have hmodal := map_on_modal_congr hoperand m op
      rw [hm.unary_map_range, unary_congr hworlds hrelation, hworlds, hm'.unary_map_range,
        List.map_map, List.map_map] at hmodal
      exact List.map_inj_left.mp hmodal w (List.mem_range.mpr (hworlds ▸ hw))
  | binary op φ ψ ihφ ihψ =>
    have hφ : m.AgreeFor m' s (n + (Operand.exchanges (.left op)).toNat) φ :=
      fun name k hk => h name k (Formula.mem_occurrences_binary_left hk)
    have hψ : m.AgreeFor m' s (n + (Operand.exchanges (.right op)).toNat) ψ :=
      fun name k hk => h name k (Formula.mem_occurrences_binary_right hk)
    rw [meaning, meaning, ← Evidence.binary_eq_table, ← Evidence.binary_eq_table]
    exact Evidence.on_binary_congr (ihφ hφ hw) (ihψ hψ hw) op

/-- **Evidence for and evidence against are found independently of each other.** On a side, what a
binary operator makes of its operands depends on that side of them only, and so does what a modality
makes of its operand at all worlds. Hence a formula comes to the same on a side, at every world of
two models that come about with the same worlds and the same relation and that have its variables,
if the models have the same entries wherever these count: the entries of that side for variables
under an even number of negations, and those of the other side for variables under an odd number. -/
theorem evaluate_sides_apart (s : Side) :
    (∀ (op : Binary) (a a' b b' : Evidence), a.on s = a'.on s → b.on s = b'.on s →
      (Evidence.binary op a b).on s = (Evidence.binary op a' b').on s) ∧
    (∀ (m : Model) (op : Modality) (all all' : List Evidence),
      all.map (·.on s) = all'.map (·.on s) →
        (m.unary (.modal op) all).map (·.on s) = (m.unary (.modal op) all').map (·.on s)) ∧
    ∀ m m' : Model, m.Reachable → m'.Reachable →
      m.worlds = m'.worlds → m.relation = m'.relation →
      ∀ φ : Formula, m.Defines φ → m'.Defines φ → m.AgreeFor m' s 0 φ →
        ∀ limit w,
          (m.evaluate limit φ w).map (·.on s) = (m'.evaluate limit φ w).map (·.on s) ∧
          (φ.depth ≤ limit → w < m.worlds →
            ∃ a a', m.evaluate limit φ w = .ok a ∧ m'.evaluate limit φ w = .ok a' ∧
              a.on s = a'.on s) := by
  refine ⟨fun op a a' b b' ha hb => Evidence.on_binary_congr ha hb op,
    fun m op all all' hall => map_on_modal_congr hall m op, ?_⟩
  intro m m' hm hm' hworlds hrelation φ hφ hφ' hagree limit w
  have hshape := hm.wellShaped
  have hshape' := hm'.wellShaped
  have hmeaning (hw : w < m.worlds) : (m.meaning φ w).on s = (m'.meaning φ w).on s :=
    on_meaning_congr hshape hshape' hworlds hrelation hagree hw
  constructor
  · rcases Nat.lt_or_ge w m.worlds with hw | hw
    · have hfault : m.firstFault? limit φ = m'.firstFault? limit φ :=
        faultFrom?_congr fun name hname => by
          rw [hφ.variableFault?_eq_none hname, hφ'.variableFault?_eq_none hname]
      rw [hshape.evaluate_of_lt _ _ hw, hshape'.evaluate_of_lt _ _ (hworlds ▸ hw),
        map_unlessFault, map_unlessFault, hfault, hmeaning hw]
    · rw [evaluate_of_le hw, evaluate_of_le (hworlds ▸ hw), hworlds]
  · intro hdepth hw
    exact ⟨_, _, hshape.evaluate_eq_ok hφ hdepth hw,
      hshape'.evaluate_eq_ok hφ' hdepth (hworlds ▸ hw), hmeaning hw⟩

/-- Two worlds, the second of them in sight of the first. The evidence against `p` and that for `q`
at the second world can be chosen. -/
def partlyKnown (conP proQ : Int) : Draft :=
  .ofCalls 2 [.relation [[0, 1], [0, 0]], .values .pro "p" [0, 1], .values .con "p" [0, conP],
    .values .pro "q" [0, proQ], .values .con "q" [1, 1]]

/-- The necessity of an implication with a negation on its right side. -/
def necessarilyNot : Formula :=
  .unary (.modal .box) (.binary .implication (.var "p") (.unary .negation (.var "q")))

/-- Evidence for the formula comes from evidence for `p` and evidence against `q`, of which the two
models have the same. They have not the same evidence against the formula. -/
theorem evaluate_sides_apart_partlyKnown :
    ∃ m m' a a', (partlyKnown 0 1).build = .ok m ∧ (partlyKnown 1 0).build = .ok m' ∧
      m.evaluate 4 necessarilyNot 0 = .ok a ∧ m'.evaluate 4 necessarilyNot 0 = .ok a' ∧
      a.on .pro = a'.on .pro ∧ a.on .con = true ∧ a'.on .con = false := by
  have hbuild : (partlyKnown 0 1).build = .ok (partlyKnown 0 1).model :=
    Draft.build_eq_ok_iff.mpr ⟨rfl, rfl⟩
  have hbuild' : (partlyKnown 1 0).build = .ok (partlyKnown 1 0).model :=
    Draft.build_eq_ok_iff.mpr ⟨rfl, rfl⟩
  have hdefined (conP proQ : Int) : (partlyKnown conP proQ).model.Defines necessarilyNot := by
    intro name hname s
    rcases List.mem_pair.mp hname with rfl | rfl <;> cases s <;> rfl
  have hagree :
      (partlyKnown 0 1).model.AgreeFor (partlyKnown 1 0).model .pro 0 necessarilyNot := by
    intro name k hk w hw
    simp only [necessarilyNot, Formula.occurrences, Operand.exchanges] at hk
    have hoccurrence : k = 0 ∧ name = "p" ∨ k = 1 ∧ name = "q" := by simpa using hk
    have hworld : w = 0 ∨ w = 1 := by
      change w < 2 at hw
      omega
    rcases hoccurrence with ⟨rfl, rfl⟩ | ⟨rfl, rfl⟩ <;> rcases hworld with rfl | rfl <;> rfl
  obtain ⟨-, -, hsides⟩ := evaluate_sides_apart .pro
  obtain ⟨-, hvalue⟩ := hsides _ _ (.built hbuild) (.built hbuild') rfl rfl necessarilyNot
    (hdefined 0 1) (hdefined 1 0) hagree 4 0
  obtain ⟨a, a', ha, ha', hpro⟩ := hvalue (Nat.le_refl 4) Nat.zero_lt_two
  -- evaluating either model gives the evidence against the formula too
  obtain rfl : ⟨true, true⟩ = a := Except.ok.inj ha
  obtain rfl : ⟨true, false⟩ = a' := Except.ok.inj ha'
  exact ⟨_, _, _, _, hbuild, hbuild', ha, ha', hpro, rfl, rfl⟩

end Model

end Kripke

end TrustLogic
