import TrustLogic.Proofs.Formula.Occurrences
import TrustLogic.Proofs.Trust.Values

/-!
# Monotone formulas

If the degrees of variables in one frame are at most those in another one, it may be that the degree
of a formula is at most that in the other frame as well. It may also be at least that, for a
negation, and the right operand of a co-implication, turn the order around. The sign of an
occurrence is the parity of the number of such operands that it stands in.

* `TrustLogic.Operand.turnsDegree` – the operands that turn the order around.
* `TrustLogic.Degree.UnitLE` – the order of the degrees between zero and one, with one lemma for
  each operation that keeps it or turns it.
* `TrustLogic.Trust.TrustFavours` – more trust is in favour of a possibility and not of a necessity.
* `TrustLogic.Trust.Frame.turned_reference` – a formula compares as its variables and its trust do.

Three of the operations jump at a threshold: a negation does, a co-implication where its left side
gets above the right one, and a necessity where a degree reaches the trust. They jump to zero or to
one, so the jump is in the right direction only because no degree is beyond these. An implication
jumps to one where its left side gets above the right one, and falls back where the right side
catches up, so no sign can be given to its right operand.
-/

namespace TrustLogic

/-- The operands of which a higher degree makes for a lower one. -/
def Operand.turnsDegree : Operand → Bool
  | .only .negation => true
  | .right .coimplication => true
  | _ => false

/-! ### The order between zero and one -/

namespace Degree

variable {x x' y y' : Degree}

/-- **The order of the degrees between zero and one.** -/
structure UnitLE (x y : Degree) : Prop where
  zero_le : zero.le x
  le : x.le y
  le_one : y.le one

namespace UnitLE

theorem ne_nan (h : UnitLE x y) : x ≠ nan ∧ y ≠ nan := ne_nan_of_le h.le

/-- The sign of a zero does not matter. -/
theorem of_alike (h : UnitLE x y) (hx : x'.Alike x) (hy : y'.Alike y) : UnitLE x' y' where
  zero_le := by
    rw [alike_indiscernible.le_eq (.refl zero) hx]
    exact h.zero_le
  le := by
    rw [alike_indiscernible.le_eq hx hy]
    exact h.le
  le_one := by
    rw [alike_indiscernible.le_eq hy (.refl one)]
    exact h.le_one

theorem min (hx : UnitLE x x') (hy : UnitLE y y') : UnitLE (x.min y) (x'.min y') where
  zero_le := le_min hx.zero_le hy.zero_le
  le := by
    obtain ⟨hminx, hminy⟩ := min_le hx.ne_nan.1 hy.ne_nan.1
    exact le_min (le_trans hminx hx.le) (le_trans hminy hy.le)
  le_one := le_trans (min_le hx.ne_nan.2 hy.ne_nan.2).1 hx.le_one

theorem max (hx : UnitLE x x') (hy : UnitLE y y') : UnitLE (x.max y) (x'.max y') where
  zero_le := le_trans hx.zero_le (le_max hx.ne_nan.1 hy.ne_nan.1).1
  le := by
    obtain ⟨hmaxx, hmaxy⟩ := le_max hx.ne_nan.2 hy.ne_nan.2
    exact max_le (le_trans hx.le hmaxx) (le_trans hy.le hmaxy)
  le_one := max_le hx.le_one hy.le_one

/-- What holds to a higher degree has the lower negation. -/
theorem negation (h : UnitLE x y) : UnitLE y.negation x.negation := by
  rw [Degree.negation, Degree.negation]
  by_cases hx : zero.lt x
  · have hy : zero.lt y := by
      rw [lt_iff_le] at hx ⊢
      exact ⟨le_trans hx.1 h.le, fun hyzero => hx.2 (le_trans h.le hyzero)⟩
    rw [if_pos hx, if_pos hy]
    exact ⟨rfl, rfl, rfl⟩
  · rw [if_neg hx]
    split <;> exact ⟨rfl, rfl, rfl⟩

/-- A co-implication rises with its left side and falls with its right side. -/
theorem coimplication (hx : UnitLE x x') (hy : UnitLE y' y) :
    UnitLE (x.coimplication y) (x'.coimplication y') := by
  rw [Degree.coimplication, Degree.coimplication]
  by_cases hxy : x.le y
  · rw [if_pos hxy]
    split
    · exact ⟨rfl, rfl, rfl⟩
    · exact ⟨rfl, le_trans hx.zero_le hx.le, hx.le_one⟩
  · have hxy' : ¬ x'.le y' := fun hle => hxy (le_trans hx.le (le_trans hle hy.le))
    rw [if_neg hxy, if_neg hxy']
    exact hx

end UnitLE

end Degree

namespace Trust

open Degree (UnitLE)

variable {x x' y y' : Degree} {φ : Formula} {n : Nat} {a : String}

/-! ### One step -/

theorem turned_negation (h : turned UnitLE (n + 1) x y) :
    turned UnitLE n x.negation y.negation := by
  have hback : turned UnitLE n y x := h
  by_cases hn : Even n
  · simp only [turned_iff, if_pos hn] at hback ⊢
    exact hback.negation
  · simp only [turned_iff, if_neg hn] at hback ⊢
    exact hback.negation

/-- A connective keeps the order of its operands, or turns it. -/
theorem unitLE_binary {op : Binary} (hop : op ≠ .implication) (x x' y y' : Degree)
    (hx : UnitLE x x') (hy : turned UnitLE (Operand.turnsDegree (.right op)).toNat y y') :
    UnitLE (binary op x y) (binary op x' y') := by
  cases op with
  | conjunction => exact hx.min hy
  | disjunction => exact hx.max hy
  | implication => exact absurd rfl hop
  | coimplication => exact hx.coimplication hy

/-- **Trust changes in favour of a modality**: there is less of it for a necessity and more of it
for a possibility. -/
def TrustFavours : Modality → Degree → Degree → Prop
  | .box => turned UnitLE 1
  | .diamond => UnitLE

/-- A necessity jumps to one where the degree reaches the trust, so it may rise but not fall there
if the degree rises and the trust falls. -/
theorem unitLE_weigh (op : Modality) (hx : TrustFavours op x x') (hy : UnitLE y y') :
    UnitLE (weigh op x y) (weigh op x' y') := by
  cases op with
  | box =>
    have htrust : UnitLE x' x := hx
    rw [weigh, weigh]
    by_cases hxy : x.le y
    · have hxy' : x'.le y' := Degree.le_trans htrust.le (Degree.le_trans hxy hy.le)
      rw [if_pos hxy, if_pos hxy']
      exact ⟨rfl, rfl, rfl⟩
    · rw [if_neg hxy]
      split
      · exact ⟨hy.zero_le, Degree.le_trans hy.le hy.le_one, rfl⟩
      · exact hy
  | diamond => exact Degree.UnitLE.min hx hy

theorem exists_alike_gathered {op : Modality} {S : Multiset Degree} (h : gathered op S ≠ .nan) :
    ∃ x ∈ S, x.Alike (gathered op S) := by
  cases op with
  | box => exact Degree.exists_alike_lowest h
  | diamond => exact Degree.exists_alike_highest h

/-- **What is gathered compares as what it is gathered from**, if each of the degrees on either side
has one on the other side to compare it with. -/
theorem unitLE_gathered (op : Modality) {S T : Multiset Degree} (hS : S ≠ 0)
    (hST : ∀ x ∈ S, ∃ y ∈ T, UnitLE x y) (hTS : ∀ y ∈ T, ∃ x ∈ S, UnitLE x y) :
    UnitLE (gathered op S) (gathered op T) := by
  obtain ⟨x, hx⟩ := Multiset.exists_mem_of_ne_zero hS
  obtain ⟨y, hy, hxy⟩ := hST x hx
  have hSnumber : gathered op S ≠ .nan := fun h => hxy.ne_nan.1 (gathered_eq_nan_iff.mp h x hx)
  have hTnumber : gathered op T ≠ .nan := fun h => hxy.ne_nan.2 (gathered_eq_nan_iff.mp h y hy)
  -- the extremes are among the degrees, and each of them is compared with one on the other side
  obtain ⟨s, hs, hsame⟩ := exists_alike_gathered hSnumber
  obtain ⟨t, ht, htame⟩ := exists_alike_gathered hTnumber
  obtain ⟨t', ht', hst'⟩ := hST s hs
  obtain ⟨s', hs', hs't⟩ := hTS t ht
  have hle : (gathered op S).le (gathered op T) := by
    cases op with
    | box =>
      rw [← Degree.alike_indiscernible.le_eq (.refl _) htame]
      exact Degree.le_trans (Degree.lowest_le hs' hs't.ne_nan.1) hs't.le
    | diamond =>
      rw [← Degree.alike_indiscernible.le_eq hsame (.refl _)]
      exact Degree.le_trans hst'.le (Degree.le_highest ht' hst'.ne_nan.2)
  rw [← Degree.alike_indiscernible.le_eq hsame htame] at hle
  have hst : UnitLE s t := ⟨hst'.zero_le, hle, hs't.le_one⟩
  exact hst.of_alike hsame.symm htame.symm

namespace Frame

variable {f g : Frame}

/-! ### Formulas -/

/-- **A modality compares as its operand does** at the trusted agents, if the trust in them changes
in its favour. -/
theorem unitLE_reference_modal (op : Modality) (htrusts : ∀ b, f.Trusts a b ↔ g.Trusts a b)
    (hself : f.IsTrusting a)
    (htrust : ∀ b x y, f.trust.get? a b = some x → g.trust.get? a b = some y → TrustFavours op x y)
    (hφ : ∀ b, f.Trusts a b → UnitLE (f.reference φ b) (g.reference φ b)) :
    UnitLE (f.reference (.unary (.modal op) φ) a) (g.reference (.unary (.modal op) φ) a) := by
  have hweigh : ∀ b x y, (b, x) ∈ f.trusted a → (b, y) ∈ g.trusted a →
      UnitLE (weigh op x (f.reference φ b)) (weigh op y (g.reference φ b)) := by
    intro b x y hx hy
    refine unitLE_weigh op ?_ (hφ b (trusts_iff.mpr ⟨x, hx⟩))
    exact htrust b x y (mem_trusted_iff.mp hx) (mem_trusted_iff.mp hy)
  rw [reference_modal, reference_modal]
  refine unitLE_gathered op ?_ ?_ ?_
  · simpa using isTrusting_iff_trusted_ne_nil.mp hself
  · simp only [Multiset.mem_map, Multiset.mem_coe, Prod.exists]
    rintro _ ⟨b, x, hx, rfl⟩
    obtain ⟨y, hy⟩ := trusts_iff.mp ((htrusts b).mp (trusts_iff.mpr ⟨x, hx⟩))
    exact ⟨_, ⟨b, y, hy, rfl⟩, hweigh b x y hx hy⟩
  · simp only [Multiset.mem_map, Multiset.mem_coe, Prod.exists]
    rintro _ ⟨b, y, hy, rfl⟩
    obtain ⟨x, hx⟩ := trusts_iff.mp ((htrusts b).mpr (trusts_iff.mpr ⟨y, hy⟩))
    exact ⟨_, ⟨b, x, hx, rfl⟩, hweigh b x y hx hy⟩

/-- The same, turned around a number of times. -/
theorem turned_reference_modal (op : Modality) (htrusts : ∀ b, f.Trusts a b ↔ g.Trusts a b)
    (hself : f.IsTrusting a)
    (htrust : ∀ b x y, f.trust.get? a b = some x → g.trust.get? a b = some y →
      turned (TrustFavours op) n x y)
    (hφ : ∀ b, f.Trusts a b → turned UnitLE n (f.reference φ b) (g.reference φ b)) :
    turned UnitLE n (f.reference (.unary (.modal op) φ) a)
      (g.reference (.unary (.modal op) φ) a) := by
  by_cases hn : Even n
  · simp only [turned_iff, if_pos hn] at htrust hφ ⊢
    exact unitLE_reference_modal op htrusts hself htrust hφ
  · simp only [turned_iff, if_neg hn] at htrust hφ ⊢
    have hself' : g.IsTrusting a := by
      rw [isTrusting_iff] at hself ⊢
      obtain ⟨b, hb⟩ := hself
      exact ⟨b, (htrusts b).mp hb⟩
    exact unitLE_reference_modal op (fun b => (htrusts b).symm) hself'
      (fun b x y hx hy => htrust b y x hy hx) fun b hb => hφ b ((htrusts b).mpr hb)

/-- **A formula compares as its variables do**, and as trust is in favour of its modalities, each of
them turned around as often as it stands in an operand that turns the order. -/
theorem turned_reference (htrusts : ∀ b c, f.Trusts b c ↔ g.Trusts b c) {room : Nat}
    (himplication : .binary .implication ∉ φ.operators)
    (hvar : ∀ k name, (k, .var name) ∈ φ.occurrences Operand.turnsDegree n →
      ∀ b, turned UnitLE k (f.degree name b) (g.degree name b))
    (hmodal : ∀ k op ψ, (k, .unary (.modal op) ψ) ∈ φ.occurrences Operand.turnsDegree n →
      ∀ b c x y, f.trust.get? b c = some x → g.trust.get? b c = some y →
        turned (TrustFavours op) k x y)
    (hφ : f.HasDegree room φ a) : turned UnitLE n (f.reference φ a) (g.reference φ a) := by
  induction room generalizing φ n a with
  | zero => exact absurd hφ not_hasDegree_zero
  | succ room ih =>
    cases φ with
    | var name => exact hvar n name (List.mem_singleton_self _) a
    | unary op φ =>
      have hnone : .binary .implication ∉ φ.operators := mt (List.mem_cons_of_mem _) himplication
      have hoperand {b : String} (hb : f.HasDegree room φ b) :
          turned UnitLE (n + (Operand.turnsDegree (.only op)).toNat) (f.reference φ b)
            (g.reference φ b) :=
        ih hnone (fun k name hk => hvar k name (Formula.mem_occurrences_unary hk))
          (fun k op ψ hk => hmodal k op ψ (Formula.mem_occurrences_unary hk)) hb
      cases op with
      | negation => exact turned_negation (hoperand (hasDegree_negation.mp hφ))
      | modal op =>
        obtain ⟨hself, hnext⟩ := hasDegree_modal.mp hφ
        exact turned_reference_modal op (htrusts a) hself (hmodal n op φ List.mem_cons_self a)
          fun b hb => hoperand (hnext b hb)
    | binary op φ ψ =>
      obtain ⟨hφ, hψ⟩ := hasDegree_binary.mp hφ
      have hop : op ≠ .implication := by
        rintro rfl
        exact himplication List.mem_cons_self
      have hleft : turned UnitLE n (f.reference φ a) (g.reference φ a) :=
        ih (fun hmem => himplication (List.mem_cons_of_mem _ (List.mem_append_left _ hmem)))
          (fun k name hk => hvar k name (Formula.mem_occurrences_binary_left hk))
          (fun k op ψ hk => hmodal k op ψ (Formula.mem_occurrences_binary_left hk)) hφ
      have hright := ih
        (fun hmem => himplication (List.mem_cons_of_mem _ (List.mem_append_right _ hmem)))
        (fun k name hk => hvar k name (Formula.mem_occurrences_binary_right hk))
        (fun k op ψ hk => hmodal k op ψ (Formula.mem_occurrences_binary_right hk)) hψ
      rw [Nat.add_comm, turned_add] at hright
      rw [reference_binary, reference_binary]
      exact turned_map₂ (unitLE_binary hop) hleft hright

/-! ### Two frames -/

/-- **Degrees rise** from one frame to the other where variables occur positively in the formula,
and fall where they occur negatively. Where no degree is written, it is zero. -/
structure DegreesRise (f g : Frame) (φ : Formula) : Prop where
  positive : ∀ k name, (k, .var name) ∈ φ.occurrences Operand.turnsDegree 0 → Even k →
    ∀ b, (f.degree name b).le (g.degree name b)
  negative : ∀ k name, (k, .var name) ∈ φ.occurrences Operand.turnsDegree 0 → ¬ Even k →
    ∀ b, (g.degree name b).le (f.degree name b)

/-- **The same trust**, up to the sign of zero. -/
def SameTrust (f g : Frame) : Prop :=
  ∀ a b x y, f.trust.get? a b = some x → g.trust.get? a b = some y → x.Alike y

/-- **Trust grows** from one frame to the other, and in the formula all necessities are negative and
all possibilities positive. -/
structure TrustGrows (f g : Frame) (φ : Formula) : Prop where
  le : ∀ a b x y, f.trust.get? a b = some x → g.trust.get? a b = some y → x.le y
  box : ∀ k ψ, (k, .unary (.modal .box) ψ) ∈ φ.occurrences Operand.turnsDegree 0 → ¬ Even k
  diamond : ∀ k ψ, (k, .unary (.modal .diamond) ψ) ∈ φ.occurrences Operand.turnsDegree 0 → Even k

theorem InUnit.unitLE (hf : f.InUnit) (hg : g.InUnit) {x y : Degree} (hx : f.Value x)
    (hy : g.Value y) (hle : x.le y) : UnitLE x y :=
  ⟨(hf x hx).1, hle, (hg y hy).2⟩

theorem DegreesRise.turned (h : DegreesRise f g φ) (hf : f.InUnit) (hg : g.InUnit) {k : Nat}
    {name : String} (hk : (k, .var name) ∈ φ.occurrences Operand.turnsDegree 0) (b : String) :
    turned UnitLE k (f.degree name b) (g.degree name b) := by
  have hfb := f.value_degree name b
  have hgb := g.value_degree name b
  rw [turned_iff]
  split
  · next hn => exact hf.unitLE hg hfb hgb (h.positive k name hk hn b)
  · next hn => exact hg.unitLE hf hgb hfb (h.negative k name hk hn b)

/-- Either kind of trust is in favour of every modality in the formula, seen from where it
stands. -/
theorem turned_trustFavours (hf : f.InUnit) (hg : g.InUnit)
    (h : SameTrust f g ∨ TrustGrows f g φ) {k : Nat} {op : Modality} {ψ : Formula}
    (hk : (k, .unary (.modal op) ψ) ∈ φ.occurrences Operand.turnsDegree 0) {b c : String}
    {x y : Degree} (hx : f.trust.get? b c = some x) (hy : g.trust.get? b c = some y) :
    turned (TrustFavours op) k x y := by
  rw [turned_iff]
  rcases h with hsame | hgrows
  · have hxy : x.Alike y := hsame b c x y hx hy
    have hle : UnitLE x y := by
      refine hf.unitLE hg (.trust hx) (.trust hy) ?_
      exact (Degree.le_iff_lt_or_alike (hf.ne_nan (.trust hx))).mpr (.inr hxy)
    have hge : UnitLE y x := hle.of_alike hxy.symm hxy
    split <;> cases op
    · exact hge
    · exact hle
    · exact hle
    · exact hge
  · have hle : UnitLE x y := hf.unitLE hg (.trust hx) (.trust hy) (hgrows.le b c x y hx hy)
    cases op with
    | box =>
      rw [if_neg (hgrows.box k ψ hk)]
      exact hle
    | diamond =>
      rw [if_pos (hgrows.diamond k ψ hk)]
      exact hle

end Frame

/-- **One verdict at most the other**: two degrees of which the first is at most the second, or two
faults. -/
structure VerdictLE (r r' : Except EvalError Degree) : Prop where
  /-- Either result is a degree if the other one is. -/
  ok_iff : (∃ x, r = .ok x) ↔ ∃ y, r' = .ok y
  /-- The first degree is at most the second. -/
  le : ∀ x y, r = .ok x → r' = .ok y → x.le y

/-- The orders in which the trusted agents are asked in the two frames have nothing to do with each
other. -/
theorem Enumeration.verdictLE {f g : Frame} (o : Enumeration f) (o' : Enumeration g)
    (hf : f.InUnit) (hg : g.InUnit) (htrusts : ∀ b c, f.Trusts b c ↔ g.Trusts b c)
    (himplication : .binary .implication ∉ φ.operators) (hdegrees : f.DegreesRise g φ)
    (htrust : f.SameTrust g ∨ f.TrustGrows g φ) (limit : Nat) (a : String) :
    VerdictLE (o.evaluate limit φ a) (o'.evaluate limit φ a) where
  ok_iff := by
    rw [evaluate, evaluate, o.exists_degreeOf_eq_ok_iff, o'.exists_degreeOf_eq_ok_iff]
    exact Frame.hasDegree_congr htrusts
  le x y hx hy := by
    have hφ : f.HasDegree limit φ a := (o.exists_degreeOf_eq_ok_iff limit).mp ⟨x, hx⟩
    have hle : turned UnitLE 0 (f.reference φ a) (g.reference φ a) :=
      Frame.turned_reference htrusts himplication
        (fun _ _ hk b => hdegrees.turned hf hg hk b)
        (fun _ _ _ hk _ _ _ _ hx hy => Frame.turned_trustFavours hf hg htrust hk hx hy) hφ
    exact (UnitLE.of_alike hle (o.degreeOf_alike hx) (o'.degreeOf_alike hy)).le

namespace Frame

/-- **Evaluating is monotone by signs.** Let everyone trust the same agents in two frames, let all
the degrees and all the trust lie between zero and one, and let a formula have no implication. From
the one frame to the other the degrees rise where variables occur positively in the formula and fall
where they occur negatively. The trust is the same, or it grows and the necessities in the formula
are negative and the possibilities positive. Then the formula has a degree at the same agents in
both frames, and it is at most the degree in the second one. It does not matter in which order
trusted agents are asked, be it in the one frame or in the other. -/
theorem evaluate_monotone {f g : Frame} {φ : Formula} (hf : f.InUnit) (hg : g.InUnit)
    (htrusts : ∀ b c, f.Trusts b c ↔ g.Trusts b c)
    (himplication : .binary .implication ∉ φ.operators) (hdegrees : f.DegreesRise g φ)
    (htrust : f.SameTrust g ∨ f.TrustGrows g φ) (limit : Nat) (a : String) :
    VerdictLE (f.evaluate limit φ a) (g.evaluate limit φ a) ∧
    ∀ (o : Enumeration f) (o' : Enumeration g),
      VerdictLE (o.evaluate limit φ a) (o'.evaluate limit φ a) := by
  have hall (o : Enumeration f) (o' : Enumeration g) :=
    o.verdictLE o' hf hg htrusts himplication hdegrees htrust limit a
  refine ⟨?_, hall⟩
  rw [← Enumeration.evaluate_byName, ← Enumeration.evaluate_byName]
  exact hall _ _

/-- The agent `a` trusts `b` by a quarter, who holds both `p` and `q` by halves. -/
def reserved : Frame :=
  ((empty.setTrust "a" "b" quarter).setDegree "p" "b" half).setDegree "q" "b" half

/-- The trust is a half, and `b` holds `p` to the full and `q` by a quarter. -/
def trustful : Frame :=
  ((empty.setTrust "a" "b" half).setDegree "p" "b" Degree.one).setDegree "q" "b" quarter

/-- That `p` is possible, other than that `q` is necessary. -/
def possibleUnlessNecessary : Formula :=
  .binary .coimplication possibly (.unary (.modal .box) (.var "q"))

theorem inUnit_reserved : reserved.InUnit :=
  ((inUnit_empty.setTrust "a" "b" rfl rfl).setDegree "p" "b" rfl rfl).setDegree "q" "b" rfl rfl

theorem inUnit_trustful : trustful.InUnit :=
  ((inUnit_empty.setTrust "a" "b" rfl rfl).setDegree "p" "b" rfl rfl).setDegree "q" "b" rfl rfl

theorem trusts_reserved_iff (b c : String) : reserved.Trusts b c ↔ trustful.Trusts b c := by
  have hreserved : reserved.Trusts b c ↔ ("a" = b ∧ "b" = c) ∨ empty.Trusts b c := trusts_setTrust
  have htrustful : trustful.Trusts b c ↔ ("a" = b ∧ "b" = c) ∨ empty.Trusts b c := trusts_setTrust
  rw [hreserved, htrustful]

/-- There is more of `p`, which is positive, and less of `q`, which is negative. -/
theorem degreesRise_reserved : reserved.DegreesRise trustful possibleUnlessNecessary := by
  have hvar {k : Nat} {name : String}
      (hk : (k, .var name) ∈ possibleUnlessNecessary.occurrences Operand.turnsDegree 0) :
      k = 0 ∧ name = "p" ∨ k = 1 ∧ name = "q" := by
    simpa [possibleUnlessNecessary, possibly, Formula.occurrences, Operand.turnsDegree] using hk
  have hnone (row column : String) : Grid.get? ∅ row column = none := by simp [Grid.get?]
  constructor
  · intro k name hk heven b
    obtain ⟨-, rfl⟩ | ⟨rfl, -⟩ := hvar hk
    · simp only [degree, reserved, trustful, setDegree, setTrust, empty, Grid.get?_set,
        String.reduceEq, false_and, true_and, if_false, hnone]
      split <;> rfl
    · exact absurd heven (by decide)
  · intro k name hk hodd b
    obtain ⟨rfl, -⟩ | ⟨-, rfl⟩ := hvar hk
    · exact absurd Even.zero hodd
    · simp only [degree, reserved, trustful, setDegree, setTrust, empty, Grid.get?_set,
        String.reduceEq, false_and, true_and, if_false, hnone]
      split <;> rfl

/-- There is more trust, the possibility is positive and the necessity is negative. -/
theorem trustGrows_reserved : reserved.TrustGrows trustful possibleUnlessNecessary := by
  have hmodal {k : Nat} {op : Modality} {ψ : Formula}
      (hk : (k, .unary (.modal op) ψ) ∈
        possibleUnlessNecessary.occurrences Operand.turnsDegree 0) :
      k = 0 ∧ op = .diamond ∧ ψ = .var "p" ∨ k = 1 ∧ op = .box ∧ ψ = .var "q" := by
    simpa [possibleUnlessNecessary, possibly, Formula.occurrences, Operand.turnsDegree] using hk
  constructor
  · intro a b x y hx hy
    have hnone : Grid.get? ∅ a b = none := by simp [Grid.get?]
    simp only [reserved, trustful, setDegree, setTrust, Grid.get?_set, empty, hnone] at hx hy
    split_ifs at hx hy
    cases hx
    cases hy
    rfl
  · intro k ψ hk
    obtain ⟨-, hop, -⟩ | ⟨rfl, -⟩ := hmodal hk
    · cases hop
    · decide
  · intro k ψ hk
    obtain ⟨rfl, -⟩ | ⟨-, hop, -⟩ := hmodal hk
    · exact Even.zero
    · cases hop

/-- With more trust, more of `p` and less of `q` the formula rises from zero to a half. In the first
frame `q` is necessary to the full, for the degree reaches the trust, and in the second one it does
not. -/
theorem evaluate_monotone_trustful :
    reserved.InUnit ∧ trustful.InUnit ∧ (∀ b c, reserved.Trusts b c ↔ trustful.Trusts b c) ∧
    .binary .implication ∉ possibleUnlessNecessary.operators ∧
    reserved.DegreesRise trustful possibleUnlessNecessary ∧
    reserved.TrustGrows trustful possibleUnlessNecessary ∧
    reserved.evaluate 3 possibleUnlessNecessary "a" = .ok Degree.zero ∧
    trustful.evaluate 3 possibleUnlessNecessary "a" = .ok half ∧ Degree.zero.le half := by
  have himplication : .binary .implication ∉ possibleUnlessNecessary.operators := by decide
  obtain ⟨hverdict, -⟩ := evaluate_monotone inUnit_reserved inUnit_trustful trusts_reserved_iff
    himplication degreesRise_reserved (.inr trustGrows_reserved) 3 "a"
  have hbefore : reserved.evaluate 3 possibleUnlessNecessary "a" = .ok Degree.zero := rfl
  have hafter : trustful.evaluate 3 possibleUnlessNecessary "a" = .ok half := rfl
  exact ⟨inUnit_reserved, inUnit_trustful, trusts_reserved_iff, himplication,
    degreesRise_reserved, trustGrows_reserved, hbefore, hafter, hverdict.le _ _ hbefore hafter⟩

end Frame

end Trust

end TrustLogic
