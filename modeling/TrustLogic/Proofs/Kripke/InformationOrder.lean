import TrustLogic.Proofs.Kripke.Polarity

/-!
# The order of information

More may be known of the variables in one model than in another, with all the evidence of the other
and some besides, be it for them or against them. Then more is known of a formula too. Nothing that
was known before is given up when evidence is added, not even if it comes to speak against it.

* `TrustLogic.Kripke.Evidence.InfoLE` – the order, evidence on either side being more.
* `TrustLogic.Kripke.Model.infoLE_meaning_modal` – a modality hands it up, if what is in sight stays
  the same. Unlike truth, information may get lost on one of the sides with more worlds in sight.

There are operands for which this is the wrong way round, because an implication looks for the lack
of evidence on its left side, and a co-implication on its right side. They are counted by
`TrustLogic.Operand.reverses`, and a formula that has neither has no such operand. A negation only
exchanges the sides and is not one of them.
-/

namespace TrustLogic

theorem Operand.operator_of_reverses {o : Operand} (h : o.reverses = true) :
    o.operator = .binary .implication ∨ o.operator = .binary .coimplication := by
  cases o with
  | only op => cases h
  | left op =>
    cases op with
    | implication => exact .inl rfl
    | conjunction | disjunction | coimplication => cases h
  | right op =>
    cases op with
    | coimplication => exact .inr rfl
    | conjunction | disjunction | implication => cases h

namespace Kripke

/-! ### The order -/

namespace Evidence

/-- **The order of information**: all the evidence in the first is in the second, on either side. -/
structure InfoLE (a b : Evidence) : Prop where
  pro : a.pro ≤ b.pro
  con : a.con ≤ b.con

theorem turned_infoLE_iff {a b : Evidence} {n : Nat} :
    turned InfoLE n a b ↔
      turned (· ≤ ·) n (a.on .pro) (b.on .pro) ∧ turned (· ≤ ·) n (a.on .con) (b.on .con) := by
  simp only [turned_iff]
  split <;> exact ⟨fun h => ⟨h.pro, h.con⟩, fun h => ⟨h.1, h.2⟩⟩

end Evidence

/-! ### Formulas -/

namespace Model

open Evidence (InfoLE)

variable {m m' : Model} {φ : Formula} {w : Nat}

theorem infoLE_meaning_modal (op : Modality) (hsight : m.inSight w = m'.inSight w)
    (h : ∀ v < m.worlds, InfoLE (m.meaning φ v) (m'.meaning φ v)) :
    InfoLE (m.meaning (.unary (.modal op) φ) w) (m'.meaning (.unary (.modal op) φ) w) := by
  have hm {v : Nat} (hv : v ∈ m.inSight w) : InfoLE (m.meaning φ v) (m'.meaning φ v) :=
    h v (lt_of_mem_inSight hv)
  cases op with
  | box =>
    constructor <;> simp only [meaning, ← hsight]
    · exact all_le_all (List.Subset.refl _) fun v hv => (hm hv).pro
    · exact any_le_any (List.Subset.refl _) fun v hv => (hm hv).con
  | diamond =>
    constructor <;> simp only [meaning, ← hsight]
    · exact any_le_any (List.Subset.refl _) fun v hv => (hm hv).pro
    · exact all_le_all (List.Subset.refl _) fun v hv => (hm hv).con

/-- **Information is handed up**, as long as the same worlds are in sight. -/
theorem handsUp_infoLE :
    HandsUp InfoLE Operand.reverses fun _ w m m' => m.inSight w = m'.inSight w where
  negation h := ⟨h.con, h.pro⟩
  table op _ _ _ _ ha hb := by
    obtain ⟨hapro, hacon⟩ := Evidence.turned_infoLE_iff.mp ha
    obtain ⟨hbpro, hbcon⟩ := Evidence.turned_infoLE_iff.mp hb
    exact ⟨Evidence.on_table_le .pro op hapro hbpro, Evidence.on_table_le .con op hacon hbcon⟩
  modal op _ _ _ _ _ hsight h := infoLE_meaning_modal op hsight h
  turns_modal _ := rfl

/-- Without an implication and a co-implication, no occurrence of a variable is reversed. -/
theorem relatedEntries_of_plain {r : Evidence → Evidence → Prop}
    (himplication : .binary .implication ∉ φ.operators)
    (hcoimplication : .binary .coimplication ∉ φ.operators)
    (h : ∀ name ∈ φ.names, ∀ v < m.worlds, ∀ a a',
      m.evidenceAt name v = .ok a → m'.evidenceAt name v = .ok a' → r a a') :
    RelatedEntries r Operand.reverses m m' φ := by
  intro k name hk v hv a a' ha ha'
  have hname : name ∈ φ.names := Formula.mem_names_iff_exists_occurrence.mpr ⟨k, hk⟩
  obtain rfl : k = 0 := by
    refine Formula.eq_of_mem_occurrences (fun o ho hmem => ?_) hk
    rcases Operand.operator_of_reverses ho with hop | hop
    · exact himplication (hop ▸ hmem)
    · exact hcoimplication (hop ▸ hmem)
  exact h name hname v hv a a' ha ha'

/-- **Added evidence removes none.** Let two models come about that have the same worlds, the same
relation and the variables of a formula. At every world the formula evaluates to evidence in both of
them. If the second has all the evidence of the first for variables that occur positively, on either
side, and the first all that of the second for those that occur negatively, then the second has all
the evidence of the first for the formula. Without an implication and a co-implication in the
formula it is enough that the second has all the evidence of the first for its variables. -/
theorem evaluate_infoLE (hm : m.Reachable) (hm' : m'.Reachable) (hworlds : m.worlds = m'.worlds)
    (hrelation : m.relation = m'.relation) (hφ : m.Defines φ) (hφ' : m'.Defines φ) {limit : Nat}
    (hlimit : φ.depth ≤ limit) (hw : w < m.worlds) :
    ∃ a a', m.evaluate limit φ w = .ok a ∧ m'.evaluate limit φ w = .ok a' ∧
      (RelatedEntries InfoLE Operand.reverses m m' φ → InfoLE a a') ∧
      (.binary .implication ∉ φ.operators → .binary .coimplication ∉ φ.operators →
        (∀ name ∈ φ.names, ∀ v < m.worlds, ∀ b b',
          m.evidenceAt name v = .ok b → m'.evidenceAt name v = .ok b' → InfoLE b b') →
        InfoLE a a') := by
  have hshape := hm.wellShaped
  have hshape' := hm'.wellShaped
  have hsight (k v : Nat) : turned (fun m m' => m.inSight v = m'.inSight v) k m m' := by
    have hv := inSight_congr hworlds hrelation v
    rw [turned_iff]
    split
    · exact hv
    · exact hv.symm
  have hmeaning (hentries : RelatedEntries InfoLE Operand.reverses m m' φ) :
      InfoLE (m.meaning φ w) (m'.meaning φ w) :=
    handsUp_infoLE.meaning hshape hshape' hworlds hφ hφ' hentries (fun k _ _ _ v => hsight k v) hw
  refine ⟨_, _, hshape.evaluate_eq_ok hφ hlimit hw,
    hshape'.evaluate_eq_ok hφ' hlimit (hworlds ▸ hw), hmeaning, ?_⟩
  intro himplication hcoimplication hgrows
  exact hmeaning (relatedEntries_of_plain himplication hcoimplication hgrows)

/-- Two worlds that see each other. There is evidence for and against `p` at the first, or neither,
and the same of `q` at the second. -/
def disputed (p q : Int) : Draft :=
  .ofCalls 2 [.relation [[0, 1], [1, 0]], .values .pro "p" [p, 0], .values .con "p" [p, 0],
    .values .pro "q" [0, q], .values .con "q" [0, q]]

/-- That it is possible that `p` only if `q` is not necessary. -/
def possiblyUnless : Formula :=
  .unary (.modal .diamond)
    (.binary .implication (.var "p") (.unary .negation (.unary (.modal .box) (.var "q"))))

/-- That it is necessary that `p` or that `q` is not possible. -/
def necessarilyEither : Formula :=
  .unary (.modal .box)
    (.binary .conjunction (.var "p") (.unary .negation (.unary (.modal .diamond) (.var "q"))))

/-- With less known of `p` and more of `q`, there is evidence for and against a formula in which `p`
is on the left side of an implication, and there was none. With more known of both it is so for one
without an implication. -/
theorem evaluate_infoLE_disputed :
    ∃ m₁ m₂ m₃ m₄, (disputed 1 0).build = .ok m₁ ∧ (disputed 0 1).build = .ok m₂ ∧
      (disputed 0 0).build = .ok m₃ ∧ (disputed 1 1).build = .ok m₄ ∧
      (∃ a a', m₁.evaluate 5 possiblyUnless 1 = .ok a ∧ m₂.evaluate 5 possiblyUnless 1 = .ok a' ∧
        InfoLE a a' ∧ a = ⟨false, false⟩ ∧ a' = ⟨true, true⟩) ∧
      ∃ a a', m₃.evaluate 5 necessarilyEither 1 = .ok a ∧
        m₄.evaluate 5 necessarilyEither 1 = .ok a' ∧
        InfoLE a a' ∧ a = ⟨false, false⟩ ∧ a' = ⟨true, true⟩ := by
  have hbuild {p q : Int} (h : (disputed p q).fault? = none) :
      (disputed p q).build = .ok (disputed p q).model := Draft.build_eq_ok_iff.mpr ⟨h, rfl⟩
  have hdefined (φ : Formula) (hφ : φ.names = ["p", "q"]) (p q : Int) :
      (disputed p q).model.Defines φ := by
    intro name hname s
    rw [hφ] at hname
    rcases List.mem_pair.mp hname with rfl | rfl <;> cases s <;> rfl
  have hworld {v : Nat} (hv : v < 2) : v = 0 ∨ v = 1 := by omega
  have hless : RelatedEntries InfoLE Operand.reverses (disputed 1 0).model (disputed 0 1).model
      possiblyUnless := by
    intro k name hk v hv a a' ha ha'
    have hoccurrence : k = 1 ∧ name = "p" ∨ k = 0 ∧ name = "q" := by
      simp only [possiblyUnless, Formula.occurrences, Operand.reverses] at hk
      simpa using hk
    rcases hoccurrence with ⟨rfl, rfl⟩ | ⟨rfl, rfl⟩ <;> rcases hworld hv with rfl | rfl
    all_goals
      cases ha
      cases ha'
      exact ⟨by decide, by decide⟩
  have hmore : ∀ name ∈ necessarilyEither.names, ∀ v < 2, ∀ a a',
      (disputed 0 0).model.evidenceAt name v = .ok a →
        (disputed 1 1).model.evidenceAt name v = .ok a' → InfoLE a a' := by
    intro name hname v hv a a' ha ha'
    rcases List.mem_pair.mp hname with rfl | rfl <;> rcases hworld hv with rfl | rfl
    all_goals
      cases ha
      cases ha'
      exact ⟨by decide, by decide⟩
  have h₁ : (disputed 1 0).build = .ok (disputed 1 0).model := hbuild rfl
  have h₂ : (disputed 0 1).build = .ok (disputed 0 1).model := hbuild rfl
  have h₃ : (disputed 0 0).build = .ok (disputed 0 0).model := hbuild rfl
  have h₄ : (disputed 1 1).build = .ok (disputed 1 1).model := hbuild rfl
  refine ⟨_, _, _, _, h₁, h₂, h₃, h₄, ?_, ?_⟩
  · obtain ⟨a, a', ha, ha', hle, -⟩ := evaluate_infoLE (.built h₁) (.built h₂) rfl rfl
      (hdefined possiblyUnless rfl 1 0) (hdefined possiblyUnless rfl 0 1)
      (by decide : possiblyUnless.depth ≤ 5) Nat.one_lt_two
    obtain rfl : ⟨false, false⟩ = a := Except.ok.inj ha
    obtain rfl : ⟨true, true⟩ = a' := Except.ok.inj ha'
    exact ⟨_, _, ha, ha', hle hless, rfl, rfl⟩
  · obtain ⟨a, a', ha, ha', -, hle⟩ := evaluate_infoLE (.built h₃) (.built h₄) rfl rfl
      (hdefined necessarilyEither rfl 0 0) (hdefined necessarilyEither rfl 1 1)
      (by decide : necessarilyEither.depth ≤ 5) Nat.one_lt_two
    obtain rfl : ⟨false, false⟩ = a := Except.ok.inj ha
    obtain rfl : ⟨true, true⟩ = a' := Except.ok.inj ha'
    exact ⟨_, _, ha, ha', hle (by decide) (by decide) hmore, rfl, rfl⟩

end Model

end Kripke

end TrustLogic
