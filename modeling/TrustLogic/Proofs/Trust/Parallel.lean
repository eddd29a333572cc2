import TrustLogic.Proofs.Degree.Order
import TrustLogic.Proofs.Formula.Variables
import TrustLogic.Proofs.Trust.Definedness

/-!
# Evaluating side by side

Two frames may hold different numbers and still be evaluated step by step in the same way. This is
so if the numbers at corresponding places compare alike, and if everyone's trusted agents are asked
in the same order. What comes out on either side are then numbers that correspond again, or it is
one and the same fault.

* `TrustLogic.Parallel` – two results side by side, and that it is kept up by a sequence of steps.
* `TrustLogic.Trust.Enumeration.Beside` – the trusted agents side by side.
* `TrustLogic.Trust.Enumeration.parallel_degreeOf` – the degrees of a formula side by side.

Which numbers correspond is left open. All that has to be known of it is that comparing does not see
through it, which is `TrustLogic.Degree.Indiscernible`.
-/

namespace TrustLogic

/-! ### Results side by side -/

/-- **Two results side by side**: related values, or one fault. -/
inductive Parallel {ε α β : Type} (r : α → β → Prop) : Except ε α → Except ε β → Prop
  | ok {a : α} {b : β} (h : r a b) : Parallel r (.ok a) (.ok b)
  | error (e : ε) : Parallel r (.error e) (.error e)

namespace Parallel

variable {ε α β γ δ : Type} {r : α → β → Prop} {s : γ → δ → Prop}
  {x : Except ε α} {y : Except ε β}

theorem ok_iff (h : Parallel r x y) : (∃ a, x = .ok a) ↔ ∃ b, y = .ok b := by
  cases h <;> simp

theorem related {a : α} {b : β} (h : Parallel r (Except.ok a : Except ε α) (.ok b)) : r a b := by
  cases h with
  | ok h => exact h

theorem map {g : α → γ} {g' : β → δ} (h : Parallel r x y) (hg : ∀ a b, r a b → s (g a) (g' b)) :
    Parallel s (x.map g) (y.map g') := by
  cases h with
  | ok h => exact .ok (hg _ _ h)
  | error e => exact .error e

theorem bind {g : α → Except ε γ} {g' : β → Except ε δ} (h : Parallel r x y)
    (hg : ∀ a b, r a b → Parallel s (g a) (g' b)) : Parallel s (x.bind g) (y.bind g') := by
  cases h with
  | ok h => exact hg _ _ h
  | error e => exact .error e

/-- Steps side by side come to lists side by side, or are stopped by the same fault. -/
theorem mapM {f : α → Except ε γ} {g : β → Except ε δ} {as : List α} {bs : List β}
    (h : List.Forall₂ (fun a b => Parallel s (f a) (g b)) as bs) :
    Parallel (List.Forall₂ s) (as.mapM f) (bs.mapM g) := by
  induction h with
  | nil => exact .ok .nil
  | cons hhead _ ih =>
    rw [List.mapM_cons, List.mapM_cons]
    exact hhead.bind fun c d hcd => ih.bind fun cs ds hcds => .ok (.cons hcd hcds)

end Parallel

/-! ### One step -/

namespace Degree.Indiscernible

open Trust

variable {r : Degree → Degree → Prop} (hr : Indiscernible r) {x x' y y' : Degree}
include hr

theorem weigh (op : Modality) (hx : r x x') (hy : r y y') :
    r (weigh op x y) (weigh op x' y') := by
  cases op with
  | box => exact related_ite (by rw [hr.le_eq hx hy]) hr.one hy
  | diamond => exact hr.min hx hy

theorem gather (op : Modality) (hx : r x x') (hy : r y y') :
    r (gather op x y) (gather op x' y') := by
  cases op with
  | box => exact hr.min hx hy
  | diamond => exact hr.max hx hy

theorem binary (op : Binary) (hx : r x x') (hy : r y y') :
    r (binary op x y) (binary op x' y') := by
  cases op with
  | conjunction => exact hr.min hx hy
  | disjunction => exact hr.max hx hy
  | implication => exact hr.implication hx hy
  | coimplication => exact hr.coimplication hx hy

theorem gatherAll (op : Modality) (agent : String) {xs ys : List Degree}
    (h : List.Forall₂ r xs ys) : Parallel r (gatherAll op agent xs) (gatherAll op agent ys) := by
  cases h with
  | nil => exact .error _
  | cons hhead htail =>
    have hstep : Relator.LiftFun r (Relator.LiftFun r r) (Trust.gather op) (Trust.gather op) :=
      fun _ _ hx _ _ hy => hr.gather op hx hy
    exact .ok (List.rel_foldl hstep hhead htail)

end Degree.Indiscernible

/-! ### Formulas -/

namespace Trust.Enumeration

variable {f g : Frame} {r : Degree → Degree → Prop} {o : Enumeration f} {o' : Enumeration g}

/-- **The trusted agents side by side**: everyone's trusted agents are the same in both frames, are
asked in the same order and trusted to related degrees. -/
def Beside (r : Degree → Degree → Prop) (o : Enumeration f) (o' : Enumeration g) : Prop :=
  ∀ a, List.Forall₂ (fun entry entry' => entry.1 = entry'.1 ∧ r entry.2 entry'.2) (o.entries a)
    (o'.entries a)

theorem Beside.parallel_modal (h : Beside r o o') (hr : Degree.Indiscernible r) (op : Modality)
    {degreeAt degreeAt' : String → Except EvalError Degree}
    (hd : ∀ b, Parallel r (degreeAt b) (degreeAt' b)) (a : String) :
    Parallel r (o.modal op degreeAt a) (o'.modal op degreeAt' a) := by
  refine Parallel.bind (.mapM ((h a).imp ?_)) fun xs ys hxs => hr.gatherAll op a hxs
  rintro ⟨b, trust⟩ ⟨_, trust'⟩ ⟨rfl, htrust⟩
  exact (hd b).map fun x y hx => hr.weigh op htrust hx

/-- **Degrees stay side by side.** If comparing does not see through a relation, and the trust and
the degrees of the variables in two frames are so related, then the degrees of the formula are, or
there is the same fault in both of them. -/
theorem parallel_degreeOf (hr : Degree.Indiscernible r) (h : Beside r o o') {names : List String}
    (hdegree : ∀ name ∈ names, ∀ a, r (f.degree name a) (g.degree name a)) {φ : Formula}
    (hnames : ∀ name ∈ φ.names, name ∈ names) (limit room : Nat) (a : String) :
    Parallel r (o.degreeOf limit room φ a) (o'.degreeOf limit room φ a) := by
  induction room generalizing φ a with
  | zero => exact .error _
  | succ room ih =>
    cases φ with
    | var name => exact .ok (hdegree name (hnames name (List.mem_singleton_self name)) a)
    | unary op φ =>
      have hφ : ∀ name ∈ φ.names, name ∈ names := hnames
      cases op with
      | negation => exact (ih hφ a).map fun x y hx => hr.negation hx
      | modal op => exact h.parallel_modal hr op (fun b => ih hφ b) a
    | binary op φ ψ =>
      have hφ : ∀ name ∈ φ.names, name ∈ names := fun name hname =>
        hnames name (List.mem_append_left _ hname)
      have hψ : ∀ name ∈ ψ.names, name ∈ names := fun name hname =>
        hnames name (List.mem_append_right _ hname)
      refine (ih hφ a).bind fun x y hx => ?_
      exact (ih hψ a).map fun x' y' hx' => hr.binary op hx hx'

end Trust.Enumeration

end TrustLogic
