import TrustLogic.Proofs.Trust.Parallel

/-!
# The degree of a formula, in no order

Evaluating goes through the trusted agents one after the other. It begins with the degree that the
first one counts for, and what it has gathered so far is put together with that of the next. Frames
do not say which agent is the first. This file compares evaluating with a definition that cannot
depend on it.

* `TrustLogic.Trust.Frame.reference` – the degree of a formula by recursion on the formula. The
  trusted agents are a multiset, of which a modality takes the highest or the lowest degree.
* `TrustLogic.Trust.Enumeration.degreeOf_alike` – whatever the order in which trusted agents are
  asked, the degree that comes out is this one, up to the sign of zero.

The sign of zero has to be left out. Of two zeros the one that comes last is taken, so with a
different order there is a different one, and operators above it hand it on. They tell no more of it
than that, because comparisons do not see it.

What is not a number gives way in gathering. So it comes out of a modality only if nothing else is
there, which `TrustLogic.Trust.Frame.evaluate_eq_reference` says for either of the modalities.
-/

namespace TrustLogic.Trust

open Degree (alike_indiscernible highest lowest)

/-! ### The reference -/

namespace Frame

/-- **The degree of a formula at an agent, by recursion on the formula.** The trusted agents come in
no order, and a modality asks for the highest or the lowest of the degrees that they count for. -/
def reference (f : Frame) : Formula → String → Degree
  | .var name, a => f.degree name a
  | .unary .negation φ, a => (f.reference φ a).negation
  | .unary (.modal .diamond) φ, a =>
    highest ((f.trusted a : Multiset (String × Degree)).map fun (b, trust) =>
      trust.min (f.reference φ b))
  | .unary (.modal .box) φ, a =>
    lowest ((f.trusted a : Multiset (String × Degree)).map fun (b, trust) =>
      if trust.le (f.reference φ b) then Degree.one else f.reference φ b)
  | .binary .conjunction φ ψ, a => (f.reference φ a).conjunction (f.reference ψ a)
  | .binary .disjunction φ ψ, a => (f.reference φ a).disjunction (f.reference ψ a)
  | .binary .implication φ ψ, a => (f.reference φ a).implication (f.reference ψ a)
  | .binary .coimplication φ ψ, a => (f.reference φ a).coimplication (f.reference ψ a)

end Frame

/-- What weighed degrees come to in no order. -/
def gathered : Modality → Multiset Degree → Degree
  | .box => lowest
  | .diamond => highest

namespace Frame

theorem reference_modal (f : Frame) (op : Modality) (φ : Formula) (a : String) :
    f.reference (.unary (.modal op) φ) a =
      gathered op ((f.trusted a : Multiset (String × Degree)).map fun entry =>
        weigh op entry.2 (f.reference φ entry.1)) := by
  cases op <;> rfl

theorem reference_binary (f : Frame) (op : Binary) (φ ψ : Formula) (a : String) :
    f.reference (.binary op φ ψ) a = binary op (f.reference φ a) (f.reference ψ a) := by
  cases op <;> rfl

end Frame

/-! ### One step -/

variable {op : Modality} {x : Degree}

theorem alike_gathered {S T : Multiset Degree}
    (h : S.map Degree.standing = T.map Degree.standing) (op : Modality) :
    (gathered op S).Alike (gathered op T) := by
  cases op with
  | box => rw [Degree.Alike, gathered, Degree.standing_lowest, h, Degree.standing_lowest]
  | diamond => rw [Degree.Alike, gathered, Degree.standing_highest, h, Degree.standing_highest]

/-- **The first of the weighed degrees is nothing special**, although gathering begins with it. -/
theorem gatherAll_alike {a : String} {xs : List Degree} (h : gatherAll op a xs = .ok x) :
    x.Alike (gathered op xs) := by
  cases xs with
  | nil => cases h
  | cons y ys =>
    cases h
    cases op with
    | box => exact (Degree.merges_min.standing_foldl y ys).trans Degree.standing_lowest.symm
    | diamond => exact (Degree.merges_max.standing_foldl y ys).trans Degree.standing_highest.symm

namespace Enumeration

variable {f : Frame} (o : Enumeration f)

/-- A modality comes to what is gathered in no order, if its operand has the given degrees at the
agents at which it has one. -/
theorem modal_alike {degreeAt : String → Except EvalError Degree} {d : String → Degree}
    {a : String} (hd : ∀ b y, degreeAt b = .ok y → y.Alike (d b))
    (h : o.modal op degreeAt a = .ok x) :
    x.Alike (gathered op ((f.trusted a : Multiset (String × Degree)).map fun entry =>
      weigh op entry.2 (d entry.1))) := by
  obtain ⟨xs, hxs, hx⟩ := bind_eq_ok_iff.mp h
  have hall : List.Forall₂ (fun y entry => y.standing = (weigh op entry.2 (d entry.1)).standing)
      xs (o.entries a) := by
    refine ((mapM_eq_ok_iff.mp hxs).imp fun entry y hentry => ?_).flip
    obtain ⟨z, hz, rfl⟩ := map_eq_ok_iff.mp hentry
    exact alike_indiscernible.weigh op (.refl entry.2) (hd entry.1 z hz)
  have hstanding : xs.map Degree.standing =
      ((o.entries a).map fun entry => weigh op entry.2 (d entry.1)).map Degree.standing := by
    rw [← List.forall₂_eq_eq_eq, List.forall₂_map_left_iff, List.map_map,
      List.forall₂_map_right_iff]
    exact hall
  refine (gatherAll_alike hx).trans (alike_gathered ?_ op)
  rw [← Multiset.coe_eq_coe.mpr (o.perm a), Multiset.map_coe, Multiset.map_coe, Multiset.map_coe,
    hstanding]

/-- **Every order gives the degree of the reference**, where it gives a degree. -/
theorem degreeOf_alike {limit room : Nat} {φ : Formula} {a : String}
    (h : o.degreeOf limit room φ a = .ok x) : x.Alike (f.reference φ a) := by
  induction room generalizing φ a x with
  | zero => cases h
  | succ room ih =>
    cases φ with
    | var name =>
      cases h
      exact .refl _
    | unary op φ =>
      cases op with
      | negation =>
        obtain ⟨y, hy, rfl⟩ := map_eq_ok_iff.mp h
        exact alike_indiscernible.negation (ih hy)
      | modal op =>
        rw [f.reference_modal]
        exact o.modal_alike (fun b y hy => ih hy) h
    | binary op φ ψ =>
      obtain ⟨y, hy, hrest⟩ := bind_eq_ok_iff.mp h
      obtain ⟨z, hz, rfl⟩ := map_eq_ok_iff.mp hrest
      rw [f.reference_binary]
      exact alike_indiscernible.binary op (ih hy) (ih hz)

end Enumeration

/-! ### What is not a number -/

theorem weigh_diamond_eq_nan_iff {trust : Degree} :
    weigh .diamond trust x = .nan ↔ trust = .nan ∧ x = .nan :=
  Degree.merges_min.eq_nan_iff

theorem weigh_box_eq_nan_iff {trust : Degree} : weigh .box trust x = .nan ↔ x = .nan := by
  rw [weigh]
  split
  · next h =>
    obtain ⟨p, q, -, hq, -⟩ := Degree.le_iff.mp h
    have hx : x ≠ .nan := by
      rintro rfl
      cases hq
    simp [Degree.one, hx]
  · exact Iff.rfl

theorem gathered_eq_nan_iff {S : Multiset Degree} :
    gathered op S = .nan ↔ ∀ x ∈ S, x = .nan := by
  cases op with
  | box => exact Degree.lowest_eq_nan_iff
  | diamond => exact Degree.highest_eq_nan_iff

namespace Frame

variable {f : Frame}

theorem reference_modal_eq_nan_iff {φ : Formula} {a : String} :
    f.reference (.unary (.modal op) φ) a = .nan ↔
      ∀ b trust, f.trust.get? a b = some trust → weigh op trust (f.reference φ b) = .nan := by
  rw [f.reference_modal, gathered_eq_nan_iff, Multiset.forall_mem_map_iff]
  simp only [Multiset.mem_coe, Prod.forall, mem_trusted_iff]

theorem evaluate_alike {limit : Nat} {φ : Formula} {a : String}
    (h : f.evaluate limit φ a = .ok x) : x.Alike (f.reference φ a) := by
  rw [← Enumeration.evaluate_byName] at h
  exact Enumeration.degreeOf_alike _ h

theorem evaluate_eq_nan_iff {limit : Nat} {φ : Formula} {a : String}
    (h : ∃ x, f.evaluate limit φ a = .ok x) :
    f.evaluate limit φ a = .ok .nan ↔ f.reference φ a = .nan := by
  obtain ⟨x, hx⟩ := h
  rw [hx, Except.ok.injEq, (evaluate_alike hx).eq_nan_iff]

theorem exists_evaluate_eq_ok_iff {limit : Nat} {φ : Formula} {a : String} :
    (∃ x, f.evaluate limit φ a = .ok x) ↔ f.HasDegree limit φ a := by
  rw [← Enumeration.evaluate_byName]
  exact Enumeration.exists_degreeOf_eq_ok_iff _ limit

/-- Where a modality has a degree, its operand has one at every trusted agent. -/
theorem exists_evaluate_operand {limit : Nat} {φ : Formula} {a b : String} {trust : Degree}
    (h : ∃ x, f.evaluate limit (.unary (.modal op) φ) a = .ok x)
    (hb : f.trust.get? a b = some trust) : ∃ x, f.evaluate limit φ b = .ok x := by
  rw [exists_evaluate_eq_ok_iff] at h ⊢
  cases limit with
  | zero => exact absurd h not_hasDegree_zero
  | succ limit =>
    have hφ := (hasDegree_modal.mp h).2 b (trusts_iff.mpr ⟨trust, mem_trusted_iff.mpr hb⟩)
    exact ⟨Nat.le_succ_of_le hφ.1, hφ.2⟩

/-- **Evaluating computes the order-free degree.** A degree that evaluating comes to is the one of
the reference, up to the sign of zero. Every order of the trusted agents gives a degree then, and
gives the same one. What is not a number comes out of a modality exactly where it is all that the
trusted agents count for: of a possibility where neither the trust nor the degree is a number at any
of them, and of a necessity where no degree is. -/
theorem evaluate_eq_reference {limit : Nat} {φ : Formula} {a : String} {x : Degree}
    (h : f.evaluate limit φ a = .ok x) :
    x.Alike (f.reference φ a) ∧
    (∀ o : Enumeration f, ∃ y, o.evaluate limit φ a = .ok y ∧ y.Alike x) ∧
    (∀ ψ, φ = .unary (.modal .diamond) ψ →
      (x = .nan ↔ ∀ b trust, f.trust.get? a b = some trust →
        trust = .nan ∧ f.evaluate limit ψ b = .ok .nan)) ∧
    ∀ ψ, φ = .unary (.modal .box) ψ →
      (x = .nan ↔ ∀ b trust, f.trust.get? a b = some trust →
        f.evaluate limit ψ b = .ok .nan) := by
  have hx := evaluate_alike h
  refine ⟨hx, fun o => ?_, ?_, ?_⟩
  · obtain ⟨y, hy⟩ := (o.exists_degreeOf_eq_ok_iff limit).mpr
      (exists_evaluate_eq_ok_iff.mp ⟨x, h⟩)
    exact ⟨y, hy, (o.degreeOf_alike hy).trans hx.symm⟩
  · rintro ψ rfl
    rw [hx.eq_nan_iff, reference_modal_eq_nan_iff]
    refine forall_congr' fun b => forall_congr' fun trust => forall_congr' fun hb => ?_
    rw [weigh_diamond_eq_nan_iff, evaluate_eq_nan_iff (exists_evaluate_operand ⟨x, h⟩ hb)]
  · rintro ψ rfl
    rw [hx.eq_nan_iff, reference_modal_eq_nan_iff]
    refine forall_congr' fun b => forall_congr' fun trust => forall_congr' fun hb => ?_
    rw [weigh_box_eq_nan_iff, evaluate_eq_nan_iff (exists_evaluate_operand ⟨x, h⟩ hb)]

/-- The agent `a` trusts `b` and `c`, and the agent `d` trusts `b` alone. Neither the trust in `b`
nor the degree at `b` is a number. -/
def hesitant : Frame :=
  (((empty.setTrust "a" "b" Degree.nan).setTrust "a" "c" Degree.one).setTrust "d" "b"
    Degree.nan).setDegree "p" "b" Degree.nan |>.setDegree "p" "c" Degree.one

/-- The possibility of a variable. -/
def possibly : Formula := .unary (.modal .diamond) (.var "p")

/-- What is not a number gives way to the degree of another trusted agent, and comes out where
there is no other. -/
theorem evaluate_eq_reference_hesitant :
    (hesitant.evaluate 2 possibly "a" = .ok Degree.one ∧
      Degree.one.Alike (hesitant.reference possibly "a") ∧
      ∀ o : Enumeration hesitant,
        ∃ y, o.evaluate 2 possibly "a" = .ok y ∧ y.Alike Degree.one) ∧
    hesitant.evaluate 2 possibly "d" = .ok Degree.nan ∧
    ∀ b trust, hesitant.trust.get? "d" b = some trust →
      trust = .nan ∧ hesitant.evaluate 2 (.var "p") b = .ok .nan := by
  have hknown : hesitant.evaluate 2 possibly "a" = .ok Degree.one := rfl
  have hunknown : hesitant.evaluate 2 possibly "d" = .ok Degree.nan := rfl
  obtain ⟨hreference, horder, -⟩ := evaluate_eq_reference hknown
  obtain ⟨-, -, hnan, -⟩ := evaluate_eq_reference hunknown
  exact ⟨⟨hknown, hreference, horder⟩, hunknown, (hnan (.var "p") rfl).mp rfl⟩

end Frame

end TrustLogic.Trust
