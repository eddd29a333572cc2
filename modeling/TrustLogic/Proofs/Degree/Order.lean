import Mathlib.Data.Multiset.Fold
import Mathlib.Order.Lattice
import TrustLogic.Degree.Basic

/-!
# The order of degrees

Degrees are compared and one of two is taken, and nothing else is ever done with them. So of a
degree it only matters where it stands among the numbers, if it is one. This leaves out the sign of
a zero, which is the one thing that comparing does not see.

* `TrustLogic.Degree.standing` – where a degree stands, and `TrustLogic.Degree.Alike`, the degrees
  that stand at the same place. They are equal or both zeros (`TrustLogic.Degree.alike_iff`).
* `TrustLogic.Degree.Indiscernible` – the relations that comparing does not see through, as it does
  not see through this one. All that is done with degrees respects them.
* `TrustLogic.Degree.Merges` – what taking the smaller and taking the larger of two degrees have in
  common: two numbers are put together by where they stand, and what is not a number gives way.
* `TrustLogic.Degree.lowest`, `TrustLogic.Degree.highest` – the extremes of a multiset of degrees.
  They bound the numbers in it (`TrustLogic.Degree.lowest_le`, `TrustLogic.Degree.le_highest`) and
  are among them, but for the sign of a zero.

Of two zeros the second is taken, so taking the smaller of two degrees is not commutative. On places
it is, and there what is not a number has become the neutral element of `Option.merge`. This is
carried over to degrees by leaving the sign of a zero out (`TrustLogic.Degree.unsignedly`), and it
is what makes the extremes of a multiset well defined.
-/

namespace TrustLogic.Degree

variable {x x' y y' z : Degree}

/-! ### Standing -/

theorem natAbs_place (s : Bool) (r : Nat) : (place s r).natAbs = r := by
  cases s <;> simp [place]

/-- The rank of a number is how far from zero it stands. -/
theorem rank_eq_of_place_eq {s t : Bool} {r q : Fin (infinityRank + 1)}
    (h : place s r = place t q) : r = q := by
  rw [Fin.ext_iff, ← natAbs_place s r, h, natAbs_place]

/-- Where a degree stands among all numbers, if it is one. -/
def standing : Degree → Option Int
  | nan => none
  | number s r => some (place s r)

@[simp] theorem standing_nan : standing nan = none := rfl

@[simp] theorem standing_number (s : Bool) (r : Fin (infinityRank + 1)) :
    standing (number s r) = some (place s r) := rfl

@[simp] theorem standing_eq_none_iff : x.standing = none ↔ x = nan := by
  cases x <;> simp

theorem exists_standing_eq_some (h : x ≠ nan) : ∃ p, x.standing = some p :=
  Option.ne_none_iff_exists'.mp (mt standing_eq_none_iff.mp h)

/-- **The same degree up to the sign of zero.** -/
def Alike (x y : Degree) : Prop := x.standing = y.standing

instance (x y : Degree) : Decidable (x.Alike y) :=
  inferInstanceAs (Decidable (x.standing = y.standing))

@[refl] theorem Alike.refl (x : Degree) : x.Alike x := rfl

@[symm] theorem Alike.symm (h : x.Alike y) : y.Alike x := Eq.symm h

@[trans] theorem Alike.trans (h : x.Alike y) (h' : y.Alike z) : x.Alike z := Eq.trans h h'

/-- What is not a number is like nothing else. -/
theorem Alike.eq_nan_iff (h : x.Alike y) : x = nan ↔ y = nan := by
  rw [← standing_eq_none_iff, ← standing_eq_none_iff, h]

/-- Two degrees that are alike are equal, or both are zeros. -/
theorem alike_iff :
    x.Alike y ↔ x = y ∨ (x.standing = some 0 ∧ y.standing = some 0) := by
  constructor
  · intro h
    cases x with
    | nan => exact .inl (h.eq_nan_iff.mp rfl).symm
    | number s r =>
      cases y with
      | nan => cases h
      | number t q =>
        have hplace : place s r = place t q := Option.some.inj h
        obtain rfl := rank_eq_of_place_eq hplace
        by_cases hst : s = t
        · exact .inl (hst ▸ rfl)
        · have hzero : place s r = 0 := by
            cases s <;> cases t <;> simp only [place] at hst hplace ⊢ <;> grind
          exact .inr ⟨congrArg some hzero, congrArg some (hplace ▸ hzero)⟩
  · rintro (rfl | ⟨hx, hy⟩)
    · rfl
    · exact hx.trans hy.symm

/-- The degree without the sign of a zero. -/
def unsigned : Degree → Degree
  | nan => nan
  | number s r => number (place s r < 0) r

theorem standing_unsigned (x : Degree) : x.unsigned.standing = x.standing := by
  cases x with
  | nan => rfl
  | number s r =>
    rw [unsigned, standing_number, standing_number, Option.some.injEq]
    cases s with
    | false => simp [place]
    | true =>
      rw [place, place]
      grind

theorem unsigned_eq_iff : x.unsigned = y.unsigned ↔ x.Alike y := by
  constructor
  · intro h
    rw [Alike, ← standing_unsigned, h, standing_unsigned]
  · intro h
    cases x with
    | nan => rw [h.eq_nan_iff.mp rfl]
    | number s r =>
      cases y with
      | nan => cases h
      | number t q =>
        have hplace : place s r = place t q := Option.some.inj h
        rw [unsigned, unsigned, hplace, rank_eq_of_place_eq hplace]

theorem le_iff : x.le y ↔ ∃ p q, x.standing = some p ∧ y.standing = some q ∧ p ≤ q := by
  cases x <;> cases y <;> simp [le]

theorem lt_iff : x.lt y ↔ ∃ p q, x.standing = some p ∧ y.standing = some q ∧ p < q := by
  cases x <;> cases y <;> simp [lt]

theorem standing_min (x y : Degree) :
    (x.min y).standing = x.standing.merge Min.min y.standing := by
  cases x with
  | nan => simp [min]
  | number s r =>
    cases y with
    | nan => rfl
    | number t q =>
      simp only [min, le, standing_number, Option.merge_some_some, decide_eq_true_eq]
      split
      · next h => rw [standing_number, min_eq_right h]
      · next h => rw [standing_number, min_eq_left (Int.le_of_lt (not_le.mp h))]

theorem standing_max (x y : Degree) :
    (x.max y).standing = x.standing.merge Max.max y.standing := by
  cases x with
  | nan => simp [max]
  | number s r =>
    cases y with
    | nan => rfl
    | number t q =>
      simp only [max, le, standing_number, Option.merge_some_some, decide_eq_true_eq]
      split
      · next h => rw [standing_number, max_eq_right h]
      · next h => rw [standing_number, max_eq_left (Int.le_of_lt (not_le.mp h))]

/-! ### Comparing and connecting -/

theorem lt_iff_le : x.lt y ↔ x.le y ∧ ¬ y.le x := by
  simp only [lt_iff, le_iff]
  grind

theorem le_of_lt (h : x.lt y) : x.le y := (lt_iff_le.mp h).1

theorem le_iff_lt_or_alike (hx : x ≠ nan) : x.le y ↔ x.lt y ∨ x.Alike y := by
  obtain ⟨p, hp⟩ := exists_standing_eq_some hx
  simp only [le_iff, lt_iff, Alike, hp]
  grind

theorem not_le_iff_lt (hx : x ≠ nan) (hy : y ≠ nan) : ¬ x.le y ↔ y.lt x := by
  obtain ⟨p, hp⟩ := exists_standing_eq_some hx
  obtain ⟨q, hq⟩ := exists_standing_eq_some hy
  simp [le_iff, lt_iff, hp, hq]

theorem ne_nan_of_le (h : x.le y) : x ≠ nan ∧ y ≠ nan := by
  obtain ⟨p, q, hp, hq, -⟩ := le_iff.mp h
  simp [← standing_eq_none_iff, hp, hq]

theorem min_eq_ite (x y : Degree) : x.min y = if x = nan ∨ y.le x then y else x := by
  cases x <;> cases y <;> simp [min, le]

theorem max_eq_ite (x y : Degree) : x.max y = if x = nan ∨ x.le y then y else x := by
  cases x <;> cases y <;> simp [max, le]

theorem le_refl (hx : x ≠ nan) : x.le x :=
  (le_iff_lt_or_alike hx).mpr (.inr (.refl x))

theorem le_trans (hxy : x.le y) (hyz : y.le z) : x.le z := by
  obtain ⟨p, q, hp, hq, hpq⟩ := le_iff.mp hxy
  obtain ⟨q', r, hq', hr, hqr⟩ := le_iff.mp hyz
  obtain rfl : q = q' := Option.some.inj (hq.symm.trans hq')
  exact le_iff.mpr ⟨p, r, hp, hr, Int.le_trans hpq hqr⟩

theorem min_le (hx : x ≠ nan) (hy : y ≠ nan) : (x.min y).le x ∧ (x.min y).le y := by
  rw [min_eq_ite]
  split
  · next h => exact ⟨h.resolve_left hx, le_refl hy⟩
  · next h => exact ⟨le_refl hx, le_of_lt ((not_le_iff_lt hy hx).mp (mt .inr h))⟩

theorem le_min (hx : z.le x) (hy : z.le y) : z.le (x.min y) := by
  rw [min_eq_ite]
  split
  · exact hy
  · exact hx

theorem le_max (hx : x ≠ nan) (hy : y ≠ nan) : x.le (x.max y) ∧ y.le (x.max y) := by
  rw [max_eq_ite]
  split
  · next h => exact ⟨h.resolve_left hx, le_refl hy⟩
  · next h => exact ⟨le_refl hx, le_of_lt ((not_le_iff_lt hx hy).mp (mt .inr h))⟩

theorem max_le (hx : x.le z) (hy : y.le z) : (x.max y).le z := by
  rw [max_eq_ite]
  split
  · exact hy
  · exact hx

/-- **A relation that comparing does not see through.** It relates zero to zero and one to one, and
what is not a number to nothing else, and related degrees compare alike. Every operation on degrees
takes related ones to related ones then, because all that it does is to compare and to pick. -/
structure Indiscernible (r : Degree → Degree → Prop) : Prop where
  zero : r zero zero
  one : r one one
  nan_iff : ∀ {x x'}, r x x' → (x = nan ↔ x' = nan)
  le_eq : ∀ {x x' y y'}, r x x' → r y y' → x.le y = x'.le y'

section Operations

variable {r : Degree → Degree → Prop}

theorem related_ite {c c' : Prop} [Decidable c] [Decidable c'] (hc : c ↔ c') (hx : r x x')
    (hy : r y y') : r (if c then x else y) (if c' then x' else y') := by
  by_cases h : c
  · rw [if_pos h, if_pos (hc.mp h)]
    exact hx
  · rw [if_neg h, if_neg (mt hc.mpr h)]
    exact hy

namespace Indiscernible

variable (hr : Indiscernible r)
include hr

theorem lt_eq (hx : r x x') (hy : r y y') : x.lt y = x'.lt y' := by
  rw [Bool.eq_iff_iff, lt_iff_le, lt_iff_le, hr.le_eq hx hy, hr.le_eq hy hx]

theorem min (hx : r x x') (hy : r y y') : r (x.min y) (x'.min y') := by
  rw [min_eq_ite, min_eq_ite]
  exact related_ite (or_congr (hr.nan_iff hx) (by rw [hr.le_eq hy hx])) hy hx

theorem max (hx : r x x') (hy : r y y') : r (x.max y) (x'.max y') := by
  rw [max_eq_ite, max_eq_ite]
  exact related_ite (or_congr (hr.nan_iff hx) (by rw [hr.le_eq hx hy])) hy hx

theorem negation (hx : r x x') : r x.negation x'.negation :=
  related_ite (by rw [hr.lt_eq hr.zero hx]) hr.zero hr.one

theorem implication (hx : r x x') (hy : r y y') : r (x.implication y) (x'.implication y') :=
  related_ite (by rw [hr.le_eq hx hy]) hy hr.one

theorem coimplication (hx : r x x') (hy : r y y') :
    r (x.coimplication y) (x'.coimplication y') :=
  related_ite (by rw [hr.le_eq hx hy]) hr.zero hx

end Indiscernible

end Operations

/-- The sign of zero is not seen by comparing. -/
theorem alike_indiscernible : Indiscernible Alike where
  zero := .refl zero
  one := .refl one
  nan_iff := Alike.eq_nan_iff
  le_eq hx hy := by rw [Bool.eq_iff_iff, le_iff, le_iff, hx, hy]

/-! ### Merging places -/

section Places

variable {α : Type} {c : α → α → α} [Std.Commutative c] [Std.Associative c]
  {T : Multiset (Option α)}

theorem fold_merge_eq_none_iff : T.fold (Option.merge c) none = none ↔ ∀ t ∈ T, t = none := by
  induction T using Multiset.induction_on with
  | empty => simp
  | cons t T ih => simp only [Multiset.fold_cons_left, Option.merge_eq_none_iff, ih,
      Multiset.forall_mem_cons]

/-- What places are merged to is one of them, if they are merged by picking. -/
theorem mem_of_fold_merge_eq_some (hc : ∀ p q, c p q = p ∨ c p q = q) {p : α}
    (h : T.fold (Option.merge c) none = some p) : some p ∈ T := by
  induction T using Multiset.induction_on generalizing p with
  | empty => cases h
  | cons t T ih =>
    rw [Multiset.fold_cons_left] at h
    rcases Option.merge_eq_or_eq hc t (T.fold (Option.merge c) none) with ht | hT
    · exact Multiset.mem_cons.mpr (.inl (h.symm.trans ht))
    · exact Multiset.mem_cons_of_mem (ih (hT.symm.trans h))

/-- What places are merged to bounds all of them, if merging two of them bounds these. -/
theorem exists_fold_merge_eq_some {r : α → α → Prop} [IsPreorder α r]
    (hc : ∀ p q, r p (c p q) ∧ r q (c p q)) {q : α} (h : some q ∈ T) :
    ∃ p, T.fold (Option.merge c) none = some p ∧ r q p := by
  induction T using Multiset.induction_on with
  | empty => cases h
  | cons t T ih =>
    rw [Multiset.fold_cons_left]
    rcases Multiset.mem_cons.mp h with rfl | hT
    · cases T.fold (Option.merge c) none with
      | none => exact ⟨q, rfl, refl_of r q⟩
      | some p => exact ⟨c q p, rfl, (hc q p).1⟩
    · obtain ⟨p, hp, hqp⟩ := ih hT
      rw [hp]
      cases t with
      | none => exact ⟨p, rfl, hqp⟩
      | some u => exact ⟨c u p, rfl, trans_of r hqp (hc u p).2⟩

end Places

/-! ### Merging degrees -/

/-- The operation takes two numbers to the place that `c` picks, and what is not a number gives way
to the other degree. -/
def Merges (op : Degree → Degree → Degree) (c : Int → Int → Int) : Prop :=
  ∀ x y, (op x y).standing = x.standing.merge c y.standing

theorem merges_min : Merges min Min.min := standing_min

theorem merges_max : Merges max Max.max := standing_max

/-- The operation, with a zero always being the positive one. -/
def unsignedly (op : Degree → Degree → Degree) (x y : Degree) : Degree := (op x y).unsigned

namespace Merges

variable {op : Degree → Degree → Degree} {c : Int → Int → Int}

/-- Only of two degrees that are no numbers the operation makes one that is none. -/
theorem eq_nan_iff (h : Merges op c) : op x y = nan ↔ x = nan ∧ y = nan := by
  rw [← standing_eq_none_iff, h, Option.merge_eq_none_iff, standing_eq_none_iff,
    standing_eq_none_iff]

theorem unsignedly (h : Merges op c) : Merges (unsignedly op) c :=
  fun x y => (standing_unsigned _).trans (h x y)

theorem commutative [Std.Commutative c] (h : Merges op c) :
    Std.Commutative (Degree.unsignedly op) where
  comm x y := by
    rw [Degree.unsignedly, Degree.unsignedly, unsigned_eq_iff, Alike, h, h]
    exact Std.Commutative.comm ..

theorem associative [Std.Associative c] (h : Merges op c) :
    Std.Associative (Degree.unsignedly op) where
  assoc x y z := by
    have hleft := h (Degree.unsignedly op x y) z
    have hright := h x (Degree.unsignedly op y z)
    rw [h.unsignedly] at hleft hright
    refine unsigned_eq_iff.mpr (hleft.trans (Eq.trans ?_ hright.symm))
    exact Std.Associative.assoc ..

variable [Std.Commutative c] [Std.Associative c]

theorem standing_fold [Std.Commutative op] [Std.Associative op] (h : Merges op c)
    (S : Multiset Degree) :
    (S.fold op nan).standing = (S.map standing).fold (Option.merge c) none :=
  (Multiset.fold_hom op h nan S).symm

/-- A fold that begins with the first of some degrees depends on where they stand, and not on the
order in which they come. -/
theorem standing_foldl (h : Merges op c) (x : Degree) (xs : List Degree) :
    (xs.foldl op x).standing =
      ((x :: xs : Multiset Degree).map standing).fold (Option.merge c) none := by
  rw [Multiset.map_coe, Multiset.coe_fold_l, List.map_cons, List.foldl_cons,
    Option.merge_none_left]
  induction xs generalizing x with
  | nil => rfl
  | cons y ys ih => rw [List.foldl_cons, ih, h, List.map_cons, List.foldl_cons]

variable [Std.Commutative op] [Std.Associative op] {S : Multiset Degree}

theorem fold_eq_nan_iff (h : Merges op c) : S.fold op nan = nan ↔ ∀ x ∈ S, x = nan := by
  rw [← standing_eq_none_iff, h.standing_fold, fold_merge_eq_none_iff, Multiset.forall_mem_map_iff]
  simp only [standing_eq_none_iff]

/-- What degrees are merged to is one of them, up to the sign of zero. -/
theorem exists_alike_fold (h : Merges op c) (hc : ∀ p q, c p q = p ∨ c p q = q)
    (hS : S.fold op nan ≠ nan) : ∃ x ∈ S, x.Alike (S.fold op nan) := by
  obtain ⟨p, hp⟩ := exists_standing_eq_some hS
  obtain ⟨x, hx, hxp⟩ := Multiset.mem_map.mp
    (mem_of_fold_merge_eq_some hc ((h.standing_fold S).symm.trans hp))
  exact ⟨x, hx, hxp.trans hp.symm⟩

/-- What degrees are merged to bounds every number among them. -/
theorem exists_standing_fold (h : Merges op c) {r : Int → Int → Prop} [IsPreorder Int r]
    (hc : ∀ p q, r p (c p q) ∧ r q (c p q)) (hx : x ∈ S) (hnumber : x ≠ nan) :
    ∃ q p, x.standing = some q ∧ (S.fold op nan).standing = some p ∧ r q p := by
  obtain ⟨q, hq⟩ := exists_standing_eq_some hnumber
  obtain ⟨p, hp, hqp⟩ := exists_fold_merge_eq_some hc (Multiset.mem_map.mpr ⟨x, hx, hq⟩)
  exact ⟨q, p, hq, (h.standing_fold S).trans hp, hqp⟩

end Merges

/-! ### Highest and lowest degrees -/

instance : Std.Commutative (unsignedly min) := merges_min.commutative

instance : Std.Associative (unsignedly min) := merges_min.associative

instance : Std.Commutative (unsignedly max) := merges_max.commutative

instance : Std.Associative (unsignedly max) := merges_max.associative

/-- **The lowest of some degrees**, in no order. It is not a number only if none of them is one. -/
def lowest (S : Multiset Degree) : Degree := S.fold (unsignedly min) nan

/-- **The highest of some degrees**, in no order. It is not a number only if none of them is one. -/
def highest (S : Multiset Degree) : Degree := S.fold (unsignedly max) nan

variable {S : Multiset Degree}

theorem standing_lowest :
    (lowest S).standing = (S.map standing).fold (Option.merge Min.min) none :=
  merges_min.unsignedly.standing_fold S

theorem standing_highest :
    (highest S).standing = (S.map standing).fold (Option.merge Max.max) none :=
  merges_max.unsignedly.standing_fold S

theorem lowest_eq_nan_iff : lowest S = nan ↔ ∀ x ∈ S, x = nan :=
  merges_min.unsignedly.fold_eq_nan_iff

theorem highest_eq_nan_iff : highest S = nan ↔ ∀ x ∈ S, x = nan :=
  merges_max.unsignedly.fold_eq_nan_iff

/-- No number among the degrees is below the lowest. -/
theorem lowest_le (hx : x ∈ S) (hnumber : x ≠ nan) : (lowest S).le x := by
  have hmin (p q : Int) : Min.min p q ≤ p ∧ Min.min p q ≤ q := ⟨min_le_left p q, min_le_right p q⟩
  obtain ⟨q, p, hq, hp, hpq⟩ :=
    merges_min.unsignedly.exists_standing_fold (r := (· ≥ ·)) hmin hx hnumber
  exact le_iff.mpr ⟨p, q, hp, hq, hpq⟩

/-- No number among the degrees is above the highest. -/
theorem le_highest (hx : x ∈ S) (hnumber : x ≠ nan) : x.le (highest S) := by
  have hmax (p q : Int) : p ≤ Max.max p q ∧ q ≤ Max.max p q := ⟨le_max_left p q, le_max_right p q⟩
  obtain ⟨q, p, hq, hp, hqp⟩ :=
    merges_max.unsignedly.exists_standing_fold (r := (· ≤ ·)) hmax hx hnumber
  exact le_iff.mpr ⟨q, p, hq, hp, hqp⟩

/-- The lowest degree is one of the degrees, up to the sign of zero. -/
theorem exists_alike_lowest (h : lowest S ≠ nan) : ∃ x ∈ S, x.Alike (lowest S) :=
  merges_min.unsignedly.exists_alike_fold min_choice h

/-- The highest degree is one of the degrees, up to the sign of zero. -/
theorem exists_alike_highest (h : highest S ≠ nan) : ∃ x ∈ S, x.Alike (highest S) :=
  merges_max.unsignedly.exists_alike_fold max_choice h

end TrustLogic.Degree
