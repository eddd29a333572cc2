import Mathlib.Data.Bool.Basic
import TrustLogic.Proofs.Formula.Occurrences
import TrustLogic.Proofs.Kripke.Substitution

/-!
# Comparing the evidence in two models

Two models with the same worlds may say different things of their variables and have different
worlds in sight. If what they say is related in some way, the evidence that they have for a formula
may be related in the same way. It may also be the other way round, for an operand can turn the
relation around, and then it matters in how many of those a variable or a modality stands.

* `TrustLogic.Kripke.Model.HandsUp` – the connectives and the modalities hand a relation up from
  their operands, a modality under a condition on what is in sight in the two models.
* `TrustLogic.Kripke.Model.RelatedEntries` – the models say related things of the variables of a
  formula, the relation being turned around for every operand on the way that turns it.
* `TrustLogic.Kripke.Model.HandsUp.meaning` – a formula hands the relation up from its variables.

The relations that are meant are orders of evidence, and these rest on two facts. One is about the
connectives, which treat each side of the evidence by itself
(`TrustLogic.Kripke.Evidence.on_table_le`). The other is about the modalities. The more worlds are
in sight, the less often something holds at all of them, and the more often at one of them
(`TrustLogic.Kripke.all_le_all`, `TrustLogic.Kripke.any_le_any`).
-/

namespace TrustLogic

/-- The operands of which more evidence on a side makes for less evidence on that side. -/
def Operand.reverses : Operand → Bool
  | .left .implication => true
  | .right .coimplication => true
  | _ => false

namespace Kripke

/-! ### Connectives -/

/-- **On either side a connective keeps the order of its operands**, or reverses it. -/
theorem Evidence.on_table_le {a a' b b' : Evidence} (s : Side) (op : Binary)
    (ha : turned (· ≤ ·) (Operand.reverses (.left op)).toNat (a.on s) (a'.on s))
    (hb : turned (· ≤ ·) (Operand.reverses (.right op)).toNat (b.on s) (b'.on s)) :
    (Evidence.table op a b).on s ≤ (Evidence.table op a' b').on s := by
  rw [← binary_eq_table, ← binary_eq_table]
  cases s <;> cases op <;>
    simp only [on, binary, conjunction, disjunction, implication, coimplication,
      Operand.reverses, Bool.toNat_true, Bool.toNat_false, turned, Bool.le_iff_imp] at ha hb ⊢ <;>
    grind

/-! ### Modalities -/

section Worlds

variable {S S' : List Nat} {f g : Nat → Bool}

/-- What has to hold at all worlds holds less often if there are more of them. -/
theorem all_le_all (hS : S' ⊆ S) (h : ∀ v ∈ S', f v ≤ g v) : S.all f ≤ S'.all g := by
  rw [Bool.le_iff_imp, List.all_eq_true, List.all_eq_true]
  intro hf v hv
  exact Bool.le_iff_imp.mp (h v hv) (hf v (hS hv))

/-- What has to hold at one world holds more often if there are more of them. -/
theorem any_le_any (hS : S ⊆ S') (h : ∀ v ∈ S, f v ≤ g v) : S.any f ≤ S'.any g := by
  rw [Bool.le_iff_imp, List.any_eq_true, List.any_eq_true]
  rintro ⟨v, hv, hf⟩
  exact ⟨v, hS hv, Bool.le_iff_imp.mp (h v hv) hf⟩

end Worlds

namespace Model

variable {m m' : Model} {φ : Formula} {w : Nat}

theorem lt_of_mem_inSight {v : Nat} (hv : v ∈ m.inSight w) : v < m.worlds :=
  List.mem_range.mp (List.mem_filter.mp hv).1

theorem inSight_subset (hworlds : m.worlds = m'.worlds)
    (hsees : ∀ v w, m.sees v w = true → m'.sees v w = true) (v : Nat) :
    m.inSight v ⊆ m'.inSight v := by
  intro w hw
  rw [inSight, List.mem_filter] at hw ⊢
  exact ⟨hworlds ▸ hw.1, hsees v w hw.2⟩

theorem inSight_congr (hworlds : m.worlds = m'.worlds) (hrelation : m.relation = m'.relation)
    (v : Nat) : m.inSight v = m'.inSight v := by
  have hsees : m.sees v = m'.sees v := by
    funext w
    rw [sees, sees, hrelation]
  rw [inSight, inSight, hworlds, hsees]

/-! ### Handing a relation up -/

variable {r : Evidence → Evidence → Prop} {turns : Operand → Bool}
  {admits : Modality → Nat → Model → Model → Prop}

/-- **A relation is handed up**: if the operands of a connective are related, so are its results,
and if the operand of a modality is related at all worlds of two models, so is the modality. The
operands that turn the relation around have to be related the other way round, and what is in sight
in the two models may only differ as the modality admits. -/
structure HandsUp (r : Evidence → Evidence → Prop) (turns : Operand → Bool)
    (admits : Modality → Nat → Model → Model → Prop) : Prop where
  negation : ∀ {a a'}, turned r (turns (.only .negation)).toNat a a' → r a.negation a'.negation
  table : ∀ op {a a' b b'}, turned r (turns (.left op)).toNat a a' →
    turned r (turns (.right op)).toNat b b' → r (Evidence.table op a b) (Evidence.table op a' b')
  modal : ∀ op {m m' : Model} {φ w}, m.worlds = m'.worlds → admits op w m m' →
    (∀ v < m.worlds, r (m.meaning φ v) (m'.meaning φ v)) →
      r (m.meaning (.unary (.modal op) φ) w) (m'.meaning (.unary (.modal op) φ) w)
  /-- The operand of a modality does not turn the relation around. -/
  turns_modal : ∀ op, turns (.only (.modal op)) = false

namespace HandsUp

/-- What is handed up in one direction is handed up in the other. -/
theorem converse (h : HandsUp r turns admits) :
    HandsUp (turned r 1) turns fun op w => turned (admits op w) 1 := by
  have hback {k : Nat} {a a' : Evidence} (ha : turned (turned r 1) k a a') : turned r k a' a := by
    rw [← turned_add, Nat.add_comm] at ha
    exact ha
  constructor
  · intro a a' ha
    exact h.negation (hback ha)
  · intro op a a' b b' ha hb
    exact h.table op (hback ha) (hback hb)
  · intro op m m' φ w hworlds hadmits hφ
    exact h.modal op hworlds.symm hadmits (hworlds ▸ hφ)
  · exact h.turns_modal

theorem turn (h : HandsUp r turns admits) (n : Nat) :
    HandsUp (turned r n) turns fun op w => turned (admits op w) n := by
  induction n with
  | zero => exact h
  | succ n ih => exact ih.converse

end HandsUp

/-! ### Formulas -/

/-- **A formula hands a relation up** that its variables and its modalities admit, each with the
relation turned around as often as it stands in an operand that turns it. -/
theorem HandsUp.turned_meaning (hr : HandsUp r turns admits) (hworlds : m.worlds = m'.worlds)
    {n : Nat}
    (hvar : ∀ k name, (k, .var name) ∈ φ.occurrences turns n →
      ∀ v < m.worlds, turned r k (m.meaning (.var name) v) (m'.meaning (.var name) v))
    (hmodal : ∀ k op ψ, (k, .unary (.modal op) ψ) ∈ φ.occurrences turns n →
      ∀ v, turned (admits op v) k m m')
    (hw : w < m.worlds) : turned r n (m.meaning φ w) (m'.meaning φ w) := by
  induction φ generalizing n w with
  | var name => exact hvar n name (List.mem_singleton_self _) w hw
  | unary op φ ih =>
    have hφ {v : Nat} (hv : v < m.worlds) :
        turned r (n + (turns (.only op)).toNat) (m.meaning φ v) (m'.meaning φ v) :=
      ih (fun k name hk => hvar k name (Formula.mem_occurrences_unary hk))
        (fun k op ψ hk => hmodal k op ψ (Formula.mem_occurrences_unary hk)) hv
    cases op with
    | negation =>
      have hoperand := hφ hw
      rw [turned_add] at hoperand
      exact (hr.turn n).negation hoperand
    | modal op =>
      rw [hr.turns_modal op] at hφ
      have hadmits := hmodal n op φ List.mem_cons_self w
      exact (hr.turn n).modal op hworlds hadmits fun v hv => hφ hv
  | binary op φ ψ ihφ ihψ =>
    have hφ := ihφ (fun k name hk => hvar k name (Formula.mem_occurrences_binary_left hk))
      (fun k op ψ hk => hmodal k op ψ (Formula.mem_occurrences_binary_left hk)) hw
    have hψ := ihψ (fun k name hk => hvar k name (Formula.mem_occurrences_binary_right hk))
      (fun k op ψ hk => hmodal k op ψ (Formula.mem_occurrences_binary_right hk)) hw
    rw [turned_add] at hφ hψ
    exact (hr.turn n).table op hφ hψ

/-- **The entries in two models are related**, for every variable as often as it occurs in the
formula: where they are found at a world, the evidence in the one model is related to the evidence
in the other, the relation being turned around once for every operand that turns it and that the
occurrence stands in. -/
def RelatedEntries (r : Evidence → Evidence → Prop) (turns : Operand → Bool) (m m' : Model)
    (φ : Formula) : Prop :=
  ∀ k name, (k, .var name) ∈ φ.occurrences turns 0 → ∀ v < m.worlds, ∀ a a',
    m.evidenceAt name v = .ok a → m'.evidenceAt name v = .ok a' → turned r k a a'

theorem Defines.evidenceAt_eq_ok (hφ : m.Defines φ) (hm : m.WellShaped) {name : String}
    (hname : name ∈ φ.names) (hw : w < m.worlds) :
    m.evidenceAt name w = .ok (m.meaning (.var name) w) := by
  rw [hm.evidenceAt_eq name hw, hφ.variableFault?_eq_none hname, unlessFault_none]

/-- **The evidence for a formula is related** if the entries of its variables are. -/
theorem HandsUp.meaning (hr : HandsUp r turns admits) (hm : m.WellShaped) (hm' : m'.WellShaped)
    (hworlds : m.worlds = m'.worlds) (hφ : m.Defines φ) (hφ' : m'.Defines φ)
    (hentries : RelatedEntries r turns m m' φ)
    (hmodal : ∀ k op ψ, (k, .unary (.modal op) ψ) ∈ φ.occurrences turns 0 →
      ∀ v, turned (admits op v) k m m')
    (hw : w < m.worlds) : r (m.meaning φ w) (m'.meaning φ w) := by
  have hmeaning : turned r 0 (m.meaning φ w) (m'.meaning φ w) := by
    refine hr.turned_meaning hworlds (fun k name hk v hv => ?_) hmodal hw
    have hname : name ∈ φ.names := Formula.mem_names_iff_exists_occurrence.mpr ⟨k, hk⟩
    refine hentries k name hk v hv _ _ (hφ.evidenceAt_eq_ok hm hname hv) ?_
    exact hφ'.evidenceAt_eq_ok hm' hname (hworlds ▸ hv)
  exact hmeaning

end Model

end Kripke

end TrustLogic
