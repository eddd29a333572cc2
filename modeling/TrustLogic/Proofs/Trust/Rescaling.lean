import TrustLogic.Proofs.Trust.Influence

/-!
# Rescaling

The numbers that a frame is written with say how degrees and trust compare, and beyond that they say
nothing. They may be replaced by any others that compare the same way, with zero and one left where
they are, and every formula has a degree where it had one before, namely the one that replaces it.

* `TrustLogic.Trust.Frame.Value` – the values of a frame, and `TrustLogic.Trust.Frame.InUnit` that
  they all lie between zero and one.
* `TrustLogic.Trust.Frame.Rescales` – what is asked of a replacement, and
  `TrustLogic.Trust.Frame.rescaled` the frame with all the numbers in it replaced.
* `TrustLogic.Trust.Frame.Rescales.indiscernible` – a value and its replacement are indiscernible,
  so that the two frames can be evaluated side by side.

Zero has to stay because it is the degree of a variable where none is written, and both of them have
to because connectives and thresholds answer with them. They all ask whether one degree is at most
another, so it does not suffice that the replacement keeps the values in their order: two that were
told apart must not become equal, and two zeros must not be told apart.
-/

namespace TrustLogic.Trust

open Degree (Indiscernible standing)

variable {h : Degree → Degree} {x y : Degree}

namespace Grid

/-- The table of tables with every degree in it replaced. -/
def map (h : Degree → Degree) (g : Grid) : Grid :=
  Std.ExtTreeMap.map (fun _ t => t.map fun _ => h) g

theorem get?_map (h : Degree → Degree) (g : Grid) (row column : String) :
    (g.map h).get? row column = (g.get? row column).map h := by
  simp only [get?, map, Std.ExtTreeMap.getElem?_map]
  cases g[row]? with
  | none => rfl
  | some t => exact Std.ExtTreeMap.getElem?_map

end Grid

namespace Frame

variable {f : Frame}

/-! ### The values of a frame -/

/-- **The values of a frame**: zero, one and all that is written in it. -/
inductive Value (f : Frame) : Degree → Prop
  | zero : Value f Degree.zero
  | one : Value f Degree.one
  | degree {name agent : String} {x : Degree} (hx : f.degrees.get? name agent = some x) : Value f x
  | trust {truster trustee : String} {x : Degree} (hx : f.trust.get? truster trustee = some x) :
    Value f x

/-- All degrees and all trust are numbers between zero and one. -/
def InUnit (f : Frame) : Prop :=
  ∀ x, f.Value x → Degree.zero.le x ∧ x.le Degree.one

theorem InUnit.ne_nan (hf : f.InUnit) (hx : f.Value x) : x ≠ .nan :=
  (Degree.ne_nan_of_le (hf x hx).1).2

theorem value_degree (f : Frame) (name agent : String) : f.Value (f.degree name agent) := by
  rw [degree]
  cases hx : f.degrees.get? name agent with
  | none => exact .zero
  | some x => exact .degree hx

/-! ### Replacing the values -/

/-- **A replacement of the values** of a frame by others that compare the same way. Zero and one are
replaced by themselves, so what replaces a value between them lies between them too
(`TrustLogic.Trust.Frame.Rescales.inUnit_rescaled`). The sign of a zero may change. -/
structure Rescales (f : Frame) (h : Degree → Degree) : Prop where
  zero : (h Degree.zero).Alike Degree.zero
  one : (h Degree.one).Alike Degree.one
  alike : ∀ x y, f.Value x → f.Value y → x.Alike y → (h x).Alike (h y)
  lt : ∀ x y, f.Value x → f.Value y → x.lt y → (h x).lt (h y)

/-- **The frame with every degree and all trust replaced.** -/
def rescaled (f : Frame) (h : Degree → Degree) : Frame :=
  ⟨f.degrees.map h, f.trust.map h⟩

theorem trusted_rescaled (f : Frame) (h : Degree → Degree) (a : String) :
    (f.rescaled h).trusted a = (f.trusted a).map fun entry => (entry.1, h entry.2) := by
  have hrow : (f.rescaled h).trusted? a = (f.trusted? a).map fun t => t.map fun _ => h :=
    Std.ExtTreeMap.getElem?_map
  rw [trusted, trusted, hrow]
  cases f.trusted? a with
  | none => rfl
  | some t => exact Std.ExtTreeMap.toList_map

namespace Rescales

/-- A degree that is not written is zero in either frame. -/
theorem degree_rescaled (hh : f.Rescales h) (name agent : String) :
    ((f.rescaled h).degree name agent).Alike (h (f.degree name agent)) := by
  rw [degree, degree, rescaled, Grid.get?_map]
  cases f.degrees.get? name agent with
  | none => exact hh.zero.symm
  | some x => exact .refl _

variable (hh : f.Rescales h) (hf : f.InUnit)
include hh hf

/-- Zero stays the lowest of the values, so none of them is replaced by something that is not a
number. -/
theorem ne_nan (hx : f.Value x) : h x ≠ .nan := by
  have hzero : Degree.zero ≠ .nan := hf.ne_nan .zero
  rcases (Degree.le_iff_lt_or_alike hzero).mp (hf x hx).1 with hlt | halike
  · exact (Degree.ne_nan_of_le (Degree.le_of_lt (hh.lt _ x .zero hx hlt))).2
  · have hstays : (h x).Alike Degree.zero := (hh.alike _ x .zero hx halike).symm.trans hh.zero
    exact mt hstays.eq_nan_iff.mp hzero

theorem le_of_le (hx : f.Value x) (hy : f.Value y) (hle : x.le y) : (h x).le (h y) := by
  rw [Degree.le_iff_lt_or_alike (hh.ne_nan hf hx)]
  rcases (Degree.le_iff_lt_or_alike (hf.ne_nan hx)).mp hle with hlt | halike
  · exact .inl (hh.lt x y hx hy hlt)
  · exact .inr (hh.alike x y hx hy halike)

/-- **Replacing values keeps every comparison**, ties included. -/
theorem le_eq (hx : f.Value x) (hy : f.Value y) : (h x).le (h y) = x.le y := by
  refine Bool.eq_iff_iff.mpr ⟨fun hle => ?_, hh.le_of_le hf hx hy⟩
  by_contra hnot
  have hlt : y.lt x := (Degree.not_le_iff_lt (hf.ne_nan hx) (hf.ne_nan hy)).mp hnot
  exact (Degree.lt_iff_le.mp (hh.lt y x hy hx hlt)).2 hle

/-- **A value and its replacement are indiscernible.** -/
theorem indiscernible : Indiscernible fun x y => f.Value x ∧ y.Alike (h x) where
  zero := ⟨.zero, hh.zero.symm⟩
  one := ⟨.one, hh.one.symm⟩
  nan_iff := by
    rintro x y ⟨hx, hy⟩
    exact iff_of_false (hf.ne_nan hx) (mt hy.eq_nan_iff.mp (hh.ne_nan hf hx))
  le_eq := by
    rintro x x' y y' ⟨hx, hx'⟩ ⟨hy, hy'⟩
    rw [Degree.alike_indiscernible.le_eq hx' hy', hh.le_eq hf hx hy]

/-- The replaced values lie between zero and one again. -/
theorem inUnit_rescaled : (f.rescaled h).InUnit := by
  have himage {x : Degree} (hx : f.Value x) : Degree.zero.le (h x) ∧ (h x).le Degree.one := by
    have hr := hh.indiscernible hf
    rw [← hr.le_eq hr.zero ⟨hx, .refl _⟩, ← hr.le_eq ⟨hx, .refl _⟩ hr.one]
    exact hf x hx
  intro y hy
  cases hy with
  | zero => exact ⟨rfl, rfl⟩
  | one => exact ⟨rfl, rfl⟩
  | degree hy =>
    obtain ⟨x, hx, rfl⟩ := Option.map_eq_some_iff.mp ((Grid.get?_map ..).symm.trans hy)
    exact himage (.degree hx)
  | trust hy =>
    obtain ⟨x, hx, rfl⟩ := Option.map_eq_some_iff.mp ((Grid.get?_map ..).symm.trans hy)
    exact himage (.trust hx)

end Rescales

end Frame

/-! ### Evaluating -/

namespace Enumeration

variable {f : Frame}

/-- The trusted agents in the same order, with the trust in them replaced. -/
def rescaled (o : Enumeration f) (h : Degree → Degree) : Enumeration (f.rescaled h) where
  entries a := (o.entries a).map fun entry => (entry.1, h entry.2)
  perm a := by
    rw [f.trusted_rescaled]
    exact (o.perm a).map _

theorem beside_rescaled (o : Enumeration f) (h : Degree → Degree) :
    Beside (fun x y => f.Value x ∧ y.Alike (h x)) o (o.rescaled h) := by
  intro a
  rw [rescaled, List.forall₂_map_right_iff, List.forall₂_same]
  rintro ⟨b, trust⟩ hb
  have htrust : f.trust.get? a b = some trust :=
    Frame.mem_trusted_iff.mp ((o.perm a).mem_iff.mp hb)
  exact ⟨rfl, .trust htrust, .refl _⟩

/-- In the same order not even a fault is another one. -/
theorem parallel_rescaled (o : Enumeration f) (hh : f.Rescales h) (hf : f.InUnit) (limit : Nat)
    (φ : Formula) (a : String) :
    Parallel (fun x y => f.Value x ∧ y.Alike (h x)) (o.evaluate limit φ a)
      ((o.rescaled h).evaluate limit φ a) := by
  have hdegree : ∀ name ∈ φ.names, ∀ b, f.Value (f.degree name b) ∧
      ((f.rescaled h).degree name b).Alike (h (f.degree name b)) :=
    fun name _ b => ⟨f.value_degree name b, hh.degree_rescaled name b⟩
  exact parallel_degreeOf (hh.indiscernible hf) (o.beside_rescaled h) hdegree
    (fun _ hname => hname) limit limit a

/-- The orders in the two frames have nothing to do with each other. -/
theorem sameVerdict_rescaled (o : Enumeration f) (hh : f.Rescales h) (hf : f.InUnit)
    (o' : Enumeration (f.rescaled h)) (limit : Nat) (φ : Formula) (a : String) :
    SameVerdict ((o.evaluate limit φ a).map h) (o'.evaluate limit φ a) := by
  have hside := o.parallel_rescaled hh hf limit φ a
  have horder : SameVerdict ((o.rescaled h).evaluate limit φ a) (o'.evaluate limit φ a) :=
    sameVerdict _ _ limit (.refl standing φ.names _ φ.modalDepth a)
  constructor
  · rw [exists_map_eq_ok_iff, hside.ok_iff, horder.ok_iff]
  · intro y z hy hz
    obtain ⟨x, hx, rfl⟩ := map_eq_ok_iff.mp hy
    obtain ⟨y', hy'⟩ := hside.ok_iff.mp ⟨x, hx⟩
    rw [hx, hy'] at hside
    exact hside.related.2.symm.trans (horder.alike y' z hy' hz)

end Enumeration

namespace Frame

/-- **Only the order of the degrees matters.** Let all the degrees and all the trust in a frame lie
between zero and one. If they are replaced by others that compare the same way, with zero and one
kept, then a formula has a degree exactly where it had one before, and this is the replacement of
the degree that it had. It does not matter in which order trusted agents are asked, be it before or
after. -/
theorem evaluate_rescaled {f : Frame} {h : Degree → Degree} (hf : f.InUnit) (hh : f.Rescales h)
    (limit : Nat) (φ : Formula) (a : String) :
    SameVerdict ((f.evaluate limit φ a).map h) ((f.rescaled h).evaluate limit φ a) ∧
    ∀ (o : Enumeration f) (o' : Enumeration (f.rescaled h)),
      SameVerdict ((o.evaluate limit φ a).map h) (o'.evaluate limit φ a) := by
  refine ⟨?_, fun o o' => o.sameVerdict_rescaled hh hf o' limit φ a⟩
  rw [← Enumeration.evaluate_byName, ← Enumeration.evaluate_byName]
  exact Enumeration.sameVerdict_rescaled _ hh hf _ limit φ a

/-- A half, which stands one power of two below one. -/
def half : Degree := .number false ⟨1022 * powerCount, by decide⟩

/-- A quarter. -/
def quarter : Degree := .number false ⟨1021 * powerCount, by decide⟩

/-- The agent `a` trusts `b` to the degree to which `b` holds `p` and `q`. The degree of `r` is the
other zero. -/
def halfway : Frame :=
  (((empty.setTrust "a" "b" half).setDegree "p" "b" half).setDegree "q" "b" half).setDegree "r" "b"
    (.number true 0)

/-- A half replaced by a quarter, and either of the zeros by the other one. -/
def lessened (x : Degree) : Degree :=
  if x = half then quarter
  else if x = Degree.zero then .number true 0
  else if x = .number true 0 then Degree.zero
  else x

/-- That it is possible that `p` implies `q`, other than that `r` is necessary. -/
def possiblyImplies : Formula :=
  .binary .coimplication
    (.unary (.modal .diamond) (.binary .implication (.var "p") (.var "q")))
    (.unary (.modal .box) (.var "r"))

/-- What occurs there. -/
def halfwayValues : List Degree := [Degree.zero, Degree.one, half, .number true 0]

theorem value_halfway (hx : halfway.Value x) : x ∈ halfwayValues := by
  have hnone (row column : String) : Grid.get? ∅ row column = none := by simp [Grid.get?]
  cases hx with
  | zero => simp [halfwayValues]
  | one => simp [halfwayValues]
  | degree hx =>
    simp only [halfway, setDegree, setTrust, Grid.get?_set, empty, hnone] at hx
    split_ifs at hx <;> cases hx <;> simp [halfwayValues]
  | trust hx =>
    simp only [halfway, setDegree, setTrust, Grid.get?_set, empty, hnone] at hx
    split_ifs at hx
    cases hx
    simp [halfwayValues]

/-- A tie of degrees that are written stays one, and so does the tie of two zeros. -/
theorem evaluate_rescaled_halfway :
    halfway.InUnit ∧ halfway.Rescales lessened ∧
    halfway.evaluate 4 possiblyImplies "a" = .ok half ∧
    ∃ y, (halfway.rescaled lessened).evaluate 4 possiblyImplies "a" = .ok y ∧ quarter.Alike y := by
  have hunit : halfway.InUnit := by
    have hall : ∀ x ∈ halfwayValues, Degree.zero.le x ∧ x.le Degree.one := by decide
    exact fun x hx => hall x (value_halfway hx)
  have hrescales : halfway.Rescales lessened := by
    have hall : ∀ x ∈ halfwayValues, ∀ y ∈ halfwayValues,
        (x.Alike y → (lessened x).Alike (lessened y)) ∧
          (x.lt y → (lessened x).lt (lessened y)) := by decide
    refine ⟨by decide, by decide, fun x y hx hy => ?_, fun x y hx hy => ?_⟩
    · exact (hall x (value_halfway hx) y (value_halfway hy)).1
    · exact (hall x (value_halfway hx) y (value_halfway hy)).2
  have hbefore : halfway.evaluate 4 possiblyImplies "a" = .ok half := rfl
  obtain ⟨hverdict, -⟩ := evaluate_rescaled hunit hrescales 4 possiblyImplies "a"
  rw [hbefore] at hverdict
  obtain ⟨y, hy⟩ := hverdict.ok_iff.mp ⟨_, rfl⟩
  exact ⟨hunit, hrescales, hbefore, y, hy, hverdict.alike _ y rfl hy⟩

end Frame

end TrustLogic.Trust
