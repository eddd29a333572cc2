import TrustLogic.Proofs.Trust.Rescaling

/-!
# Where degrees come from

No degree is ever computed. The connectives and the modalities compare degrees and answer with one
of them, or else with zero or one, so whatever evaluating comes to has been in the frame before it.
This file says which numbers of the frame these can be.

* `TrustLogic.Trust.Frame.ValueFor` – zero, one, the degrees of the variables of a formula and all
  trust.
* `TrustLogic.Degree.indiscernible_eq` – equality, on whatever degrees, is a relation that comparing
  does not see through. So a frame evaluated side by side with itself keeps to these degrees.
* `TrustLogic.Trust.Frame.InUnit.setDegree`, `TrustLogic.Trust.Frame.InUnit.setTrust` – a frame has
  its numbers between zero and one if they are when they are written.

Nothing is asked of the numbers of a frame. What is not a number is kept there like any other
degree and may come out again, but it comes out only if it is there.
-/

namespace TrustLogic

/-- **Equality of degrees of any kind** to which zero and one belong is not seen through. -/
theorem Degree.indiscernible_eq {P : Degree → Prop} (hzero : P zero) (hone : P one) :
    Indiscernible fun x y => x = y ∧ P x where
  zero := ⟨rfl, hzero⟩
  one := ⟨rfl, hone⟩
  nan_iff := by
    rintro x x' ⟨rfl, -⟩
    exact Iff.rfl
  le_eq := by
    rintro x x' y y' ⟨rfl, -⟩ ⟨rfl, -⟩
    rfl

namespace Trust

variable {φ : Formula} {x : Degree}

namespace Frame

variable {f : Frame}

/-! ### The values for a formula -/

/-- **The values of a frame that a formula can come to**: zero, one, the degrees that are written
for its variables, and the trust that is written. -/
inductive ValueFor (f : Frame) (φ : Formula) : Degree → Prop
  | zero : ValueFor f φ Degree.zero
  | one : ValueFor f φ Degree.one
  | degree {name agent : String} {x : Degree} (hname : name ∈ φ.names)
    (hx : f.degrees.get? name agent = some x) : ValueFor f φ x
  | trust {truster trustee : String} {x : Degree} (hx : f.trust.get? truster trustee = some x) :
    ValueFor f φ x

theorem ValueFor.value (h : f.ValueFor φ x) : f.Value x := by
  cases h with
  | zero => exact .zero
  | one => exact .one
  | degree _ hx => exact .degree hx
  | trust hx => exact .trust hx

theorem valueFor_degree (f : Frame) {name : String} (hname : name ∈ φ.names) (agent : String) :
    f.ValueFor φ (f.degree name agent) := by
  rw [degree]
  cases hx : f.degrees.get? name agent with
  | none => exact .zero
  | some x => exact .degree hname hx

/-! ### Writing numbers between zero and one -/

theorem inUnit_empty : empty.InUnit := by
  intro x hx
  cases hx with
  | zero => exact ⟨rfl, rfl⟩
  | one => exact ⟨rfl, rfl⟩
  | degree hx => simp [empty, Grid.get?] at hx
  | trust hx => simp [empty, Grid.get?] at hx

theorem value_of_setDegree {name agent : String} {y : Degree}
    (h : (f.setDegree name agent x).Value y) : y = x ∨ f.Value y := by
  cases h with
  | zero => exact .inr .zero
  | one => exact .inr .one
  | degree hy =>
    rw [setDegree, Grid.get?_set] at hy
    split at hy
    · exact .inl (Option.some.inj hy).symm
    · exact .inr (.degree hy)
  | trust hy => exact .inr (.trust hy)

theorem value_of_setTrust {truster trustee : String} {y : Degree}
    (h : (f.setTrust truster trustee x).Value y) : y = x ∨ f.Value y := by
  cases h with
  | zero => exact .inr .zero
  | one => exact .inr .one
  | degree hy => exact .inr (.degree hy)
  | trust hy =>
    rw [setTrust, Grid.get?_set] at hy
    split at hy
    · exact .inl (Option.some.inj hy).symm
    · exact .inr (.trust hy)

theorem InUnit.setDegree (hf : f.InUnit) (name agent : String) (hzero : Degree.zero.le x)
    (hone : x.le Degree.one) : (f.setDegree name agent x).InUnit := by
  intro y hy
  rcases value_of_setDegree hy with rfl | hy
  · exact ⟨hzero, hone⟩
  · exact hf y hy

theorem InUnit.setTrust (hf : f.InUnit) (truster trustee : String) (hzero : Degree.zero.le x)
    (hone : x.le Degree.one) : (f.setTrust truster trustee x).InUnit := by
  intro y hy
  rcases value_of_setTrust hy with rfl | hy
  · exact ⟨hzero, hone⟩
  · exact hf y hy

end Frame

/-! ### Evaluating -/

namespace Enumeration

variable {f : Frame}

theorem beside_self (o : Enumeration f) (φ : Formula) :
    Beside (fun x y => x = y ∧ f.ValueFor φ x) o o := by
  intro a
  rw [List.forall₂_same]
  rintro ⟨b, trust⟩ hb
  have htrust : f.trust.get? a b = some trust :=
    Frame.mem_trusted_iff.mp ((o.perm a).mem_iff.mp hb)
  exact ⟨rfl, rfl, .trust htrust⟩

/-- **No value is made up**, in whatever order the trusted agents are asked. -/
theorem valueFor_of_evaluate (o : Enumeration f) {limit : Nat} {a : String}
    (h : o.evaluate limit φ a = .ok x) : f.ValueFor φ x := by
  have hself : Parallel (fun x y => x = y ∧ f.ValueFor φ x) (o.evaluate limit φ a)
      (o.evaluate limit φ a) :=
    parallel_degreeOf (Degree.indiscernible_eq .zero .one) (o.beside_self φ)
      (fun name hname b => ⟨rfl, f.valueFor_degree hname b⟩) (fun _ hname => hname) limit limit a
  rw [h] at hself
  exact hself.related.2

end Enumeration

namespace Frame

/-- **Every degree comes from the frame.** A degree that a formula has at an agent is zero or one,
or it is written in the frame, as the degree of a variable of the formula or as trust. If all that
is written are numbers between zero and one, it is such a number. It does not matter in which order
trusted agents are asked. -/
theorem evaluate_value (f : Frame) (limit : Nat) (φ : Formula) (a : String) (x : Degree)
    (h : f.evaluate limit φ a = .ok x ∨ ∃ o : Enumeration f, o.evaluate limit φ a = .ok x) :
    f.ValueFor φ x ∧ (f.InUnit → x ≠ .nan ∧ Degree.zero.le x ∧ x.le Degree.one) := by
  obtain ⟨o, ho⟩ : ∃ o : Enumeration f, o.evaluate limit φ a = .ok x := by
    rcases h with h | h
    · rw [← Enumeration.evaluate_byName] at h
      exact ⟨_, h⟩
    · exact h
  have hvalue := o.valueFor_of_evaluate ho
  exact ⟨hvalue, fun hf => ⟨hf.ne_nan hvalue.value, hf x hvalue.value⟩⟩

/-- The agent `a` trusts `b` and `c` by halves, and only `c` is said to hold `p`, by a quarter. -/
def divided : Frame :=
  ((empty.setTrust "a" "b" half).setTrust "a" "c" half).setDegree "p" "c" quarter

/-- The possibility of `p` comes to the degree that is written at `c`, although the trust is higher
and nothing is written at `b`. Where neither the trust nor the degree is a number, it comes to just
that. -/
theorem evaluate_value_divided :
    (divided.InUnit ∧ divided.evaluate 2 possibly "a" = .ok quarter ∧
      divided.ValueFor possibly quarter ∧
      quarter ≠ .nan ∧ Degree.zero.le quarter ∧ quarter.le Degree.one) ∧
    hesitant.evaluate 2 possibly "d" = .ok .nan ∧ hesitant.ValueFor possibly .nan := by
  have hunit : divided.InUnit :=
    ((inUnit_empty.setTrust "a" "b" rfl rfl).setTrust "a" "c" rfl rfl).setDegree "p" "c" rfl rfl
  have hknown : divided.evaluate 2 possibly "a" = .ok quarter := rfl
  have hunknown : hesitant.evaluate 2 possibly "d" = .ok .nan := rfl
  obtain ⟨hvalue, hrange⟩ := evaluate_value divided 2 possibly "a" quarter (.inl hknown)
  obtain ⟨hnan, -⟩ := evaluate_value hesitant 2 possibly "d" .nan (.inl hunknown)
  exact ⟨⟨hunit, hknown, hvalue, hrange hunit⟩, hunknown, hnan⟩

end Frame

end Trust

end TrustLogic
