import TrustLogic.Proofs.Kripke.Polarity

/-!
# The order of truth

Evidence is more in favour of something if there is more of it for and less of it against. If one
model is more in favour of the variables that occur positively in a formula than another, and less
in favour of those that occur negatively, it is more in favour of the formula.

* `TrustLogic.Kripke.Evidence.TruthLE` – the order, and `TrustLogic.Operand.turnsTruth`, the
  operands that turn it around, which make up the signs of the occurrences.
* `TrustLogic.Kripke.Model.SightGrows` – more worlds come in sight, and the modalities of a formula
  stand where this is in favour of the formula: what is possible positively, and what is necessary
  negatively.

In this order the two sides of the evidence for a modality go together. What holds at all worlds in
sight is compared with what holds at one of them turned around, so both sides get better or both get
worse if there are more worlds.
-/

namespace TrustLogic

/-- The operands that turn the order of truth around: a negation does, since it exchanges the sides,
and so does every operand that is reversed on both of them. -/
def Operand.turnsTruth : Operand → Bool
  | .only .negation => true
  | o => o.reverses

namespace Kripke

/-! ### The order -/

namespace Evidence

/-- **The order of truth**: the evidence for in the first is in the second, and the evidence against
in the second is in the first. -/
structure TruthLE (a b : Evidence) : Prop where
  pro : a.pro ≤ b.pro
  con : b.con ≤ a.con

theorem turned_truthLE_iff {a b : Evidence} {n : Nat} :
    turned TruthLE n a b ↔
      turned (· ≤ ·) n (a.on .pro) (b.on .pro) ∧ turned (· ≤ ·) n (b.on .con) (a.on .con) := by
  simp only [turned_iff]
  split <;> exact ⟨fun h => ⟨h.pro, h.con⟩, fun h => ⟨h.1, h.2⟩⟩

end Evidence

/-! ### Formulas -/

namespace Model

open Evidence (TruthLE)

variable {m m' : Model} {φ : Formula} {w : Nat}

/-- What is in sight of a world changes in favour of a modality: there is less of it for a necessity
and more of it for a possibility. -/
def SightFavours : Modality → Nat → Model → Model → Prop
  | .box, w, m, m' => m'.inSight w ⊆ m.inSight w
  | .diamond, w, m, m' => m.inSight w ⊆ m'.inSight w

theorem truthLE_meaning_modal (op : Modality) (hworlds : m.worlds = m'.worlds)
    (hsight : SightFavours op w m m')
    (h : ∀ v < m.worlds, TruthLE (m.meaning φ v) (m'.meaning φ v)) :
    TruthLE (m.meaning (.unary (.modal op) φ) w) (m'.meaning (.unary (.modal op) φ) w) := by
  have hm {v : Nat} (hv : v ∈ m.inSight w) : TruthLE (m.meaning φ v) (m'.meaning φ v) :=
    h v (lt_of_mem_inSight hv)
  have hm' {v : Nat} (hv : v ∈ m'.inSight w) : TruthLE (m.meaning φ v) (m'.meaning φ v) :=
    h v (hworlds ▸ lt_of_mem_inSight hv)
  cases op with
  | box =>
    constructor
    · exact all_le_all hsight fun v hv => (hm' hv).pro
    · exact any_le_any hsight fun v hv => (hm' hv).con
  | diamond =>
    constructor
    · exact any_le_any hsight fun v hv => (hm hv).pro
    · exact all_le_all hsight fun v hv => (hm hv).con

/-- **Truth is handed up.** -/
theorem handsUp_truthLE : HandsUp TruthLE Operand.turnsTruth SightFavours where
  negation h := ⟨h.con, h.pro⟩
  table op _ _ _ _ ha hb := by
    obtain ⟨hapro, hacon⟩ := Evidence.turned_truthLE_iff.mp ha
    obtain ⟨hbpro, hbcon⟩ := Evidence.turned_truthLE_iff.mp hb
    exact ⟨Evidence.on_table_le .pro op hapro hbpro, Evidence.on_table_le .con op hacon hbcon⟩
  modal op _ _ _ _ hworlds hsight h := truthLE_meaning_modal op hworlds hsight h
  turns_modal _ := rfl

/-- **More worlds come in sight**, and in the formula all necessities are negative and all
possibilities positive. -/
structure SightGrows (m m' : Model) (φ : Formula) : Prop where
  sees : ∀ v w, m.sees v w = true → m'.sees v w = true
  box : ∀ k ψ, (k, .unary (.modal .box) ψ) ∈ φ.occurrences Operand.turnsTruth 0 → ¬ Even k
  diamond : ∀ k ψ, (k, .unary (.modal .diamond) ψ) ∈ φ.occurrences Operand.turnsTruth 0 → Even k

/-- This is in favour of every modality in the formula, seen from where it stands. -/
theorem turned_sightFavours (hworlds : m.worlds = m'.worlds)
    (h : m.relation = m'.relation ∨ SightGrows m m' φ) {op : Modality} {ψ : Formula} {k : Nat}
    (hk : (k, .unary (.modal op) ψ) ∈ φ.occurrences Operand.turnsTruth 0) (w : Nat) :
    turned (SightFavours op w) k m m' := by
  rw [turned_iff]
  rcases h with hrelation | hgrows
  · have hsight := inSight_congr hworlds hrelation w
    split <;> cases op <;> simp [SightFavours, hsight]
  · have hsight := inSight_subset hworlds hgrows.sees w
    cases op with
    | box =>
      rw [if_neg (hgrows.box k ψ hk)]
      exact hsight
    | diamond =>
      rw [if_pos (hgrows.diamond k ψ hk)]
      exact hsight

/-- **Truth is monotone.** Let two models come about that have the same worlds and the variables of
a formula. The second is more in favour of every variable where the variable occurs positively, and
less where it occurs negatively. Its relation is the same, or it has more worlds in sight and the
necessities in the formula are negative and the possibilities positive. At every world the formula
then evaluates to evidence in both models, and the second one is more in favour of it. -/
theorem evaluate_truthLE (hm : m.Reachable) (hm' : m'.Reachable) (hworlds : m.worlds = m'.worlds)
    (hφ : m.Defines φ) (hφ' : m'.Defines φ)
    (hentries : RelatedEntries TruthLE Operand.turnsTruth m m' φ)
    (hsight : m.relation = m'.relation ∨ SightGrows m m' φ) {limit : Nat}
    (hlimit : φ.depth ≤ limit) (hw : w < m.worlds) :
    ∃ a a', m.evaluate limit φ w = .ok a ∧ m'.evaluate limit φ w = .ok a' ∧ TruthLE a a' := by
  have hshape := hm.wellShaped
  have hshape' := hm'.wellShaped
  refine ⟨_, _, hshape.evaluate_eq_ok hφ hlimit hw,
    hshape'.evaluate_eq_ok hφ' hlimit (hworlds ▸ hw), ?_⟩
  exact handsUp_truthLE.meaning hshape hshape' hworlds hφ hφ' hentries
    (fun k op ψ hk => turned_sightFavours hworlds hsight hk) hw

/-- Two worlds, the second of them in sight of the first. It is known there that `p` and that not
`q`. -/
def sceptical : Draft :=
  .ofCalls 2 [.relation [[0, 1], [0, 0]], .values .pro "p" [0, 1], .values .con "p" [0, 0],
    .values .pro "q" [0, 0], .values .con "q" [0, 1]]

/-- The first world is in sight of itself too, and there it is known that `q`. At the second world
it is known that not `p`. -/
def hopeful : Draft :=
  .ofCalls 2 [.relation [[1, 1], [0, 0]], .values .pro "p" [0, 0], .values .con "p" [0, 1],
    .values .pro "q" [1, 0], .values .con "q" [0, 0]]

/-- That `q` is possible if `p` is necessary. -/
def possibleIfNecessary : Formula :=
  .binary .implication (.unary (.modal .box) (.var "p")) (.unary (.modal .diamond) (.var "q"))

/-- Less in favour of `p`, more in favour of `q` and with more in sight, the second model is more in
favour of the formula. -/
theorem evaluate_truthLE_hopeful :
    ∃ m m' a a', sceptical.build = .ok m ∧ hopeful.build = .ok m' ∧
      m.evaluate 3 possibleIfNecessary 0 = .ok a ∧ m'.evaluate 3 possibleIfNecessary 0 = .ok a' ∧
      TruthLE a a' ∧ a = ⟨false, true⟩ ∧ a' = ⟨true, false⟩ := by
  have hbuild : sceptical.build = .ok sceptical.model := Draft.build_eq_ok_iff.mpr ⟨rfl, rfl⟩
  have hbuild' : hopeful.build = .ok hopeful.model := Draft.build_eq_ok_iff.mpr ⟨rfl, rfl⟩
  have hdefined : sceptical.model.Defines possibleIfNecessary := by
    intro name hname s
    rcases List.mem_pair.mp hname with rfl | rfl <;> cases s <;> rfl
  have hdefined' : hopeful.model.Defines possibleIfNecessary := by
    intro name hname s
    rcases List.mem_pair.mp hname with rfl | rfl <;> cases s <;> rfl
  have hentries :
      RelatedEntries TruthLE Operand.turnsTruth sceptical.model hopeful.model
        possibleIfNecessary := by
    intro k name hk v hv a a' ha ha'
    have hoccurrence : k = 1 ∧ name = "p" ∨ k = 0 ∧ name = "q" := by
      simp only [possibleIfNecessary, Formula.occurrences, Operand.turnsTruth,
        Operand.reverses] at hk
      simpa using hk
    have hworld : v = 0 ∨ v = 1 := by
      change v < 2 at hv
      omega
    rcases hoccurrence with ⟨rfl, rfl⟩ | ⟨rfl, rfl⟩ <;> rcases hworld with rfl | rfl
    all_goals
      cases ha
      cases ha'
      exact ⟨by decide, by decide⟩
  have hsight : SightGrows sceptical.model hopeful.model possibleIfNecessary := by
    constructor
    · intro v w hsees
      rcases v with _ | _ | v <;> rcases w with _ | _ | w
      all_goals first | rfl | cases hsees
    · intro k ψ hk
      simp [possibleIfNecessary, Formula.occurrences, Operand.turnsTruth, Operand.reverses] at hk
      simp [hk.1]
    · intro k ψ hk
      simp [possibleIfNecessary, Formula.occurrences, Operand.turnsTruth, Operand.reverses] at hk
      simp [hk.1]
  obtain ⟨a, a', ha, ha', hle⟩ := evaluate_truthLE (.built hbuild) (.built hbuild') rfl hdefined
    hdefined' hentries (.inr hsight) (Nat.le_refl 3) Nat.zero_lt_two
  obtain rfl : ⟨false, true⟩ = a := Except.ok.inj ha
  obtain rfl : ⟨true, false⟩ = a' := Except.ok.inj ha'
  exact ⟨_, _, _, _, hbuild, hbuild', ha, ha', hle, rfl, rfl⟩

end Model

end Kripke

end TrustLogic
