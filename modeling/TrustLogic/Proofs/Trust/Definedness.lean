import Mathlib.Data.List.Forall2
import Mathlib.Order.MinMax
import TrustLogic.Trust.Semantics

/-!
# Where a formula has a degree

Whether a formula has a degree at an agent is not a matter of degrees. Both operands of a connective
are evaluated and so is the operand of a modality at every trusted agent, even where the answer is
settled before. What counts is therefore only how deep the formula nests, and whether everyone of
whom a modality asks about the agents trusted trusts someone. Those are the agents that lie fewer
steps of trust away than modalities nest. Trust may lead in circles, so what bounds the search is
the number of steps and not the agents that have been met.

Nothing in a frame says in which order the trusted agents of an agent come. Listing them by name is
one of many ways, and the one that is taken decides which fault is met first. So everything here is
said of all of them.

* `TrustLogic.Trust.Frame.Trusts`, `TrustLogic.Trust.Frame.Reaches` – a step of trust, and a given
  number of them.
* `TrustLogic.Trust.Enumeration` – a way to list the trusted agents of everyone, with the degrees
  that evaluating comes to when they are asked in this order.
* `TrustLogic.Trust.Frame.HasDegree` – that nothing is in the way of a degree. It is defined by the
  steps of trust and unfolds along the formula as evaluating does.
* `TrustLogic.Trust.Frame.Obstacle` – the faults that say what is in the way.
-/

namespace TrustLogic

section Sequences

variable {ε α β : Type}

variable {r : Except ε α}

theorem map_eq_ok_iff {g : α → β} {b : β} : r.map g = .ok b ↔ ∃ a, r = .ok a ∧ g a = b := by
  rcases r with e | a <;> simp [Except.map]

theorem map_eq_error_iff {g : α → β} {e : ε} : r.map g = .error e ↔ r = .error e := by
  rcases r with e' | a <;> simp [Except.map]

theorem bind_eq_ok_iff {g : α → Except ε β} {b : β} :
    r.bind g = .ok b ↔ ∃ a, r = .ok a ∧ g a = .ok b := by
  rcases r with e | a <;> simp [Except.bind]

theorem bind_eq_error_iff {g : α → Except ε β} {e : ε} :
    r.bind g = .error e ↔ r = .error e ∨ ∃ a, r = .ok a ∧ g a = .error e := by
  rcases r with e' | a <;> simp [Except.bind]

theorem exists_map_eq_ok_iff {g : α → β} : (∃ b, r.map g = .ok b) ↔ ∃ a, r = .ok a := by
  simp [map_eq_ok_iff]

theorem exists_bind_eq_ok_iff {g : α → Except ε β} :
    (∃ b, r.bind g = .ok b) ↔ ∃ a, r = .ok a ∧ ∃ b, g a = .ok b := by
  rcases r with e | a <;> simp [Except.bind]

variable {f : α → Except ε β} {as : List α} {bs : List β}

theorem mapM_eq_ok_iff : as.mapM f = .ok bs ↔ List.Forall₂ (fun a b => f a = .ok b) as bs := by
  induction as generalizing bs with
  | nil => simp [pure, Except.pure, eq_comm]
  | cons a as ih =>
    rw [List.mapM_cons, List.forall₂_cons_left_iff]
    rcases f a with e | b
    · simp [bind, Except.bind]
    · simp only [← ih, Except.ok.injEq]
      rcases as.mapM f with e | bs'
      · simp [bind, Except.bind]
      · simp [bind, Except.bind, pure, Except.pure, eq_comm]

/-- A list of results comes about if each of them does. -/
theorem exists_mapM_eq_ok_iff : (∃ bs, as.mapM f = .ok bs) ↔ ∀ a ∈ as, ∃ b, f a = .ok b := by
  simp only [mapM_eq_ok_iff]
  induction as with
  | nil => simp
  | cons a as ih =>
    rw [List.forall_mem_cons, ← ih]
    simp only [List.forall₂_cons_left_iff]
    constructor
    · rintro ⟨_, b, bs, hb, hbs, rfl⟩
      exact ⟨⟨b, hb⟩, bs, hbs⟩
    · rintro ⟨⟨b, hb⟩, bs, hbs⟩
      exact ⟨b :: bs, b, bs, hb, hbs, rfl⟩

theorem mem_mapM_iff (h : as.mapM f = .ok bs) {b : β} : b ∈ bs ↔ ∃ a ∈ as, f a = .ok b := by
  rw [mapM_eq_ok_iff] at h
  induction h with
  | nil => simp
  | cons hab _ ih => simp [ih, hab, eq_comm]

theorem mapM_congr_left {g : α → Except ε β} (h : ∀ a ∈ as, f a = g a) : as.mapM f = as.mapM g := by
  induction as with
  | nil => rfl
  | cons a as ih =>
    rw [List.forall_mem_cons] at h
    rw [List.mapM_cons, List.mapM_cons, h.1, ih h.2]

/-- The fault of a list of results is the fault of one of them. -/
theorem exists_of_mapM_eq_error {e : ε} (h : as.mapM f = .error e) : ∃ a ∈ as, f a = .error e := by
  induction as with
  | nil => cases h
  | cons a as ih =>
    rw [List.mapM_cons] at h
    rcases ha : f a with e' | b
    · rw [ha] at h
      cases h
      exact ⟨a, List.mem_cons_self, ha⟩
    · rcases has : as.mapM f with e' | bs
      · rw [ha, has] at h
        cases h
        obtain ⟨a', hmem, ha'⟩ := ih has
        exact ⟨a', List.mem_cons_of_mem _ hmem, ha'⟩
      · rw [ha, has] at h
        cases h

end Sequences

namespace Trust

/-! ### Steps of trust -/

namespace Frame

/-- The second agent is listed among those that the first one trusts, whatever the trust is. -/
def Trusts (f : Frame) (a b : String) : Prop :=
  ∃ t, f.trusted? a = some t ∧ b ∈ t

/-- The agent trusts someone: a list of those that it trusts is there and is not empty. -/
def IsTrusting (f : Frame) (a : String) : Prop :=
  ∃ t, f.trusted? a = some t ∧ t ≠ ∅

/-- The second agent is reached from the first one by a path of exactly so many steps of trust. -/
def Reaches (f : Frame) : Nat → String → String → Prop
  | 0, a, b => a = b
  | j + 1, a, b => ∃ c, f.Trusts a c ∧ f.Reaches j c b

variable {f g : Frame} {a b : String}

theorem mem_trusted_iff {x : Degree} : (b, x) ∈ f.trusted a ↔ f.trust.get? a b = some x := by
  rw [trusted, trusted?, Grid.get?]
  cases f.trust[a]? with
  | none => simp
  | some t => simp

theorem trusts_iff : f.Trusts a b ↔ ∃ x, (b, x) ∈ f.trusted a := by
  simp only [mem_trusted_iff, Trusts, trusted?, Grid.get?]
  cases f.trust[a]? with
  | none => simp
  | some t =>
    simp only [Option.some.injEq, exists_eq_left', Option.bind_some,
      Std.ExtTreeMap.mem_iff_isSome_getElem?, Option.isSome_iff_exists]

/-- Writing trust adds a step and takes none away. -/
theorem trusts_setTrust {c d : String} {x : Degree} :
    (f.setTrust a b x).Trusts c d ↔ (a = c ∧ b = d) ∨ f.Trusts c d := by
  simp only [trusts_iff, mem_trusted_iff, setTrust, Grid.get?_set]
  split
  · next h => simp [h]
  · next h => simp [h]

theorem isTrusting_iff_trusted_ne_nil : f.IsTrusting a ↔ f.trusted a ≠ [] := by
  rw [IsTrusting, trusted]
  cases f.trusted? a with
  | none => simp
  | some t => simp

theorem isTrusting_iff : f.IsTrusting a ↔ ∃ b, f.Trusts a b := by
  simp only [isTrusting_iff_trusted_ne_nil, trusts_iff, List.ne_nil_iff_exists_cons]
  constructor
  · rintro ⟨⟨b, x⟩, entries, h⟩
    exact ⟨b, x, h ▸ List.mem_cons_self⟩
  · rintro ⟨b, x, h⟩
    exact List.ne_nil_iff_exists_cons.mp (List.ne_nil_of_mem h)

theorem reaches_congr (h : ∀ a b, f.Trusts a b ↔ g.Trusts a b) (j : Nat) :
    f.Reaches j a b ↔ g.Reaches j a b := by
  induction j generalizing a with
  | zero => exact Iff.rfl
  | succ j ih => simp only [Reaches, h, ih]

end Frame

/-! ### Orders of the trusted agents -/

/-- **A way to list the trusted agents** of every agent, with the trust in each. -/
structure Enumeration (f : Frame) where
  /-- The agents that an agent trusts, one after the other. -/
  entries : String → List (String × Degree)
  /-- All of them are listed, each of them once. -/
  perm : ∀ a, (entries a).Perm (f.trusted a)

namespace Enumeration

variable {f : Frame}

/-- The trusted agents by name. -/
def byName (f : Frame) : Enumeration f where
  entries := f.trusted
  perm _ := .refl _

/-- What a modality comes to at an agent when those it trusts are asked in the given order. -/
def modal (o : Enumeration f) (op : Modality) (degreeAt : String → Except EvalError Degree)
    (agent : String) : Except EvalError Degree :=
  ((o.entries agent).mapM fun entry => (degreeAt entry.1).map (weigh op entry.2)).bind
    (gatherAll op agent)

/-- **The degree of a formula in an order**: what `Frame.degreeOf` comes to when trusted agents are
asked in the given order. -/
def degreeOf (o : Enumeration f) (limit : Nat) :
    Nat → Formula → String → Except EvalError Degree
  | 0, _, _ => .error (.tooDeep limit)
  | _ + 1, .var name, agent => .ok (f.degree name agent)
  | room + 1, .unary .negation φ, agent => (o.degreeOf limit room φ agent).map Degree.negation
  | room + 1, .unary (.modal op) φ, agent => o.modal op (o.degreeOf limit room φ) agent
  | room + 1, .binary op φ ψ, agent =>
    (o.degreeOf limit room φ agent).bind fun left =>
      (o.degreeOf limit room ψ agent).map (binary op left)

/-- The degree of a formula at an agent in an order. -/
def evaluate (o : Enumeration f) (limit : Nat) (φ : Formula) (agent : String) :
    Except EvalError Degree :=
  o.degreeOf limit limit φ agent

theorem degreeOf_byName (f : Frame) (limit room : Nat) (φ : Formula) :
    (byName f).degreeOf limit room φ = f.degreeOf limit room φ := by
  induction room generalizing φ with
  | zero => rfl
  | succ room ih =>
    funext agent
    cases φ with
    | var name => rfl
    | unary op φ =>
      cases op with
      | negation => simp only [degreeOf, Frame.degreeOf, ih]
      | modal op =>
        rw [degreeOf, ih]
        rfl
    | binary op φ ψ => simp only [degreeOf, Frame.degreeOf, ih]

/-- Evaluating asks trusted agents by name. -/
theorem evaluate_byName (f : Frame) (limit : Nat) (φ : Formula) (agent : String) :
    (byName f).evaluate limit φ agent = f.evaluate limit φ agent :=
  congrFun (degreeOf_byName f limit limit φ) agent

variable (o : Enumeration f) {a b : String}

theorem trusts_iff : f.Trusts a b ↔ ∃ x, (b, x) ∈ o.entries a := by
  simp only [Frame.trusts_iff, (o.perm a).mem_iff]

theorem isTrusting_iff : f.IsTrusting a ↔ o.entries a ≠ [] := by
  rw [Frame.isTrusting_iff_trusted_ne_nil, ne_eq, ne_eq, not_congr]
  exact ⟨fun h => (h ▸ o.perm a).eq_nil, fun h => (h ▸ o.perm a).symm.eq_nil⟩

end Enumeration

/-! ### What is in the way of a degree -/

namespace Frame

variable {f g : Frame} {room : Nat} {φ ψ : Formula} {a b : String}

/-- **Nothing is in the way of a degree** of the formula at the agent, with the given number of
levels left: there are enough of them, and whoever is reached by fewer steps than modalities nest
trusts someone. -/
def HasDegree (f : Frame) (room : Nat) (φ : Formula) (a : String) : Prop :=
  φ.depth ≤ room ∧ ∀ j < φ.modalDepth, ∀ b, f.Reaches j a b → f.IsTrusting b

theorem not_hasDegree_zero : ¬ f.HasDegree 0 φ a :=
  fun h => absurd h.1 (Nat.not_le_of_lt φ.depth_pos)

theorem hasDegree_var (name : String) : f.HasDegree (room + 1) (.var name) a :=
  ⟨Nat.le_add_left 1 room, fun _ hj => absurd hj (Nat.not_lt_zero _)⟩

theorem hasDegree_negation :
    f.HasDegree (room + 1) (.unary .negation φ) a ↔ f.HasDegree room φ a := by
  simp [HasDegree, Formula.depth, Formula.modalDepth]

theorem hasDegree_binary {op : Binary} :
    f.HasDegree (room + 1) (.binary op φ ψ) a ↔ f.HasDegree room φ a ∧ f.HasDegree room ψ a := by
  simp only [HasDegree, Formula.depth, Formula.modalDepth, Nat.add_le_add_iff_right, Nat.max_le,
    lt_max_iff, or_imp, forall_and]
  exact and_and_and_comm

/-- The steps that matter to a modality are none, and one in front of those that matter to its
operand. -/
theorem hasDegree_modal {op : Modality} :
    f.HasDegree (room + 1) (.unary (.modal op) φ) a ↔
      f.IsTrusting a ∧ ∀ b, f.Trusts a b → f.HasDegree room φ b := by
  constructor
  · rintro ⟨hdepth, hreach⟩
    refine ⟨hreach 0 (Nat.zero_lt_succ _) a rfl, fun b hb => ⟨Nat.le_of_succ_le_succ hdepth, ?_⟩⟩
    intro j hj c hc
    exact hreach (j + 1) (Nat.succ_lt_succ hj) c ⟨b, hb, hc⟩
  · rintro ⟨hself, hnext⟩
    obtain ⟨b, hb⟩ := isTrusting_iff.mp hself
    refine ⟨Nat.succ_le_succ (hnext b hb).1, fun j hj c hc => ?_⟩
    cases j with
    | zero => exact hc ▸ hself
    | succ j =>
      obtain ⟨b, hb, hc⟩ := hc
      exact (hnext b hb).2 j (Nat.lt_of_succ_lt_succ hj) c hc

/-- Only who trusts whom matters, and not how much. -/
theorem hasDegree_congr (h : ∀ a b, f.Trusts a b ↔ g.Trusts a b) :
    f.HasDegree room φ a ↔ g.HasDegree room φ a := by
  simp only [HasDegree, isTrusting_iff, h, reaches_congr h]

/-- **The faults that say what is in the way**: the nesting of the formula, under its limit, or an
agent in reach that trusts no one. -/
inductive Obstacle (f : Frame) (limit room : Nat) (φ : Formula) (a : String) : EvalError → Prop
  | tooDeep (h : room < φ.depth) : Obstacle f limit room φ a (.tooDeep limit)
  | noTrust {j : Nat} {b : String} (hj : j < φ.modalDepth) (hreach : f.Reaches j a b)
      (h : ¬ f.IsTrusting b) : Obstacle f limit room φ a (.noTrust b)

namespace Obstacle

variable {limit : Nat} {err : EvalError}

/-- What is in the way of a part is in the way of the whole. -/
theorem lift (h : f.Obstacle limit room φ a err) (hdepth : φ.depth + 1 ≤ ψ.depth)
    (hmodal : φ.modalDepth ≤ ψ.modalDepth) : f.Obstacle limit (room + 1) ψ a err := by
  cases h with
  | tooDeep h => exact .tooDeep (by omega)
  | noTrust hj hreach h => exact .noTrust (Nat.lt_of_lt_of_le hj hmodal) hreach h

/-- What is in the way at a trusted agent is in the way of a modality. -/
theorem step (h : f.Obstacle limit room φ b err) (hb : f.Trusts a b) (op : Modality) :
    f.Obstacle limit (room + 1) (.unary (.modal op) φ) a err := by
  cases h with
  | tooDeep h => exact .tooDeep (Nat.succ_lt_succ h)
  | noTrust hj hreach h => exact .noTrust (Nat.succ_lt_succ hj) ⟨b, hb, hreach⟩ h

end Obstacle

end Frame

/-! ### Evaluating -/

theorem exists_gatherAll_eq_ok_iff {op : Modality} {agent : String} {xs : List Degree} :
    (∃ x, gatherAll op agent xs = .ok x) ↔ xs ≠ [] := by
  cases xs <;> simp [gatherAll]

namespace Enumeration

variable {f : Frame} (o : Enumeration f) {op : Modality}
  {degreeAt : String → Except EvalError Degree} {a : String}

/-- A modality has a degree if its operand has one at every trusted agent, and there is one. -/
theorem exists_modal_eq_ok_iff :
    (∃ x, o.modal op degreeAt a = .ok x) ↔
      f.IsTrusting a ∧ ∀ b, f.Trusts a b → ∃ y, degreeAt b = .ok y := by
  have hall : (∃ xs, ((o.entries a).mapM fun entry =>
      (degreeAt entry.1).map (weigh op entry.2)) = .ok xs) ↔
        ∀ b, f.Trusts a b → ∃ y, degreeAt b = .ok y := by
    simp only [exists_mapM_eq_ok_iff, exists_map_eq_ok_iff, Prod.forall, o.trusts_iff,
      forall_exists_index]
  rw [modal, exists_bind_eq_ok_iff, ← hall, o.isTrusting_iff, ← exists_and_left]
  refine exists_congr fun xs => and_comm.trans (and_congr_left fun hxs => ?_)
  have hlength := (mapM_eq_ok_iff.mp hxs).length_eq
  rw [exists_gatherAll_eq_ok_iff, ← List.length_pos_iff, ← List.length_pos_iff, hlength]

/-- A modality has no degree for the reason that no one is trusted, or for one of those for which
its operand has none at a trusted agent. -/
theorem modal_eq_error {err : EvalError} (h : o.modal op degreeAt a = .error err) :
    (err = .noTrust a ∧ ¬ f.IsTrusting a) ∨ ∃ b, f.Trusts a b ∧ degreeAt b = .error err := by
  rcases bind_eq_error_iff.mp h with hall | ⟨xs, hxs, hgather⟩
  · obtain ⟨⟨b, t⟩, hmem, hentry⟩ := exists_of_mapM_eq_error hall
    exact .inr ⟨b, o.trusts_iff.mpr ⟨t, hmem⟩, map_eq_error_iff.mp hentry⟩
  · cases xs with
    | nil =>
      have hnil : o.entries a = [] := by
        simpa using mapM_eq_ok_iff.mp hxs
      cases hgather
      exact .inl ⟨rfl, fun htrust => o.isTrusting_iff.mp htrust hnil⟩
    | cons x xs => cases hgather

/-- **A formula has a degree if nothing is in the way of one**, in whatever order trusted agents are
asked. -/
theorem exists_degreeOf_eq_ok_iff (limit : Nat) {room : Nat} {φ : Formula} :
    (∃ x, o.degreeOf limit room φ a = .ok x) ↔ f.HasDegree room φ a := by
  induction room generalizing φ a with
  | zero => simp [degreeOf, Frame.not_hasDegree_zero]
  | succ room ih =>
    cases φ with
    | var name => simp [degreeOf, Frame.hasDegree_var]
    | unary op φ =>
      cases op with
      | negation => rw [degreeOf, exists_map_eq_ok_iff, ih, Frame.hasDegree_negation]
      | modal op => simp only [degreeOf, o.exists_modal_eq_ok_iff, ih, Frame.hasDegree_modal]
    | binary op φ ψ =>
      rw [degreeOf, exists_bind_eq_ok_iff, Frame.hasDegree_binary]
      simp only [exists_map_eq_ok_iff, exists_and_right, ih]

/-- **A fault says what is in the way.** -/
theorem obstacle_of_degreeOf {limit room : Nat} {φ : Formula} {err : EvalError}
    (h : o.degreeOf limit room φ a = .error err) : f.Obstacle limit room φ a err := by
  induction room generalizing φ a with
  | zero =>
    cases h
    exact .tooDeep φ.depth_pos
  | succ room ih =>
    cases φ with
    | var name => cases h
    | unary op φ =>
      cases op with
      | negation => exact (ih (map_eq_error_iff.mp h)).lift (Nat.le_refl _) (Nat.le_refl _)
      | modal op =>
        rcases o.modal_eq_error h with ⟨rfl, hself⟩ | ⟨b, hb, hφ⟩
        · exact .noTrust (Nat.zero_lt_succ _) rfl hself
        · exact (ih hφ).step hb op
    | binary op φ ψ =>
      rcases bind_eq_error_iff.mp h with hφ | ⟨x, -, hψ⟩
      · exact (ih hφ).lift (Nat.succ_le_succ (Nat.le_max_left ..)) (Nat.le_max_left ..)
      · refine (ih (map_eq_error_iff.mp hψ)).lift ?_ (Nat.le_max_right ..)
        exact Nat.succ_le_succ (Nat.le_max_right ..)

end Enumeration

/-! ### Degrees and faults -/

namespace Frame

/-- **What a result accounts for**: a degree says that nothing is in the way of one, and a fault
what is. -/
structure Accounts (f : Frame) (limit : Nat) (φ : Formula) (a : String)
    (r : Except EvalError Degree) : Prop where
  /-- There is a degree exactly where the formula nests as deep as is admitted and all agents trust
  someone that are reached by fewer steps of trust than modalities nest. -/
  ok_iff : (∃ x, r = .ok x) ↔
    φ.depth ≤ limit ∧ ∀ j < φ.modalDepth, ∀ b, f.Reaches j a b → f.IsTrusting b
  /-- Only a formula that nests deeper than is admitted is too deep. -/
  tooDeep : ∀ n, r = .error (.tooDeep n) → n = limit ∧ limit < φ.depth
  /-- The agent that is said to trust no one does so, and is reached by few enough steps. -/
  noTrust : ∀ b, r = .error (.noTrust b) →
    ∃ j < φ.modalDepth, f.Reaches j a b ∧ ¬ f.IsTrusting b

theorem accounts_of_enumeration {f : Frame} (o : Enumeration f) (limit : Nat) (φ : Formula)
    (a : String) : f.Accounts limit φ a (o.evaluate limit φ a) where
  ok_iff := o.exists_degreeOf_eq_ok_iff limit
  tooDeep n hn := by
    cases o.obstacle_of_degreeOf hn with
    | tooDeep h => exact ⟨rfl, h⟩
  noTrust b hb := by
    cases o.obstacle_of_degreeOf hb with
    | noTrust hj hreach h => exact ⟨_, hj, hreach, h⟩

/-- **Where a formula has a degree.** In whatever order the trusted agents are asked, the result
accounts for where there is a degree and for what is in the way of one. So two frames in which
everyone trusts the same agents give degrees to the same formulas at the same agents, whatever the
degrees and the trust written in them. -/
theorem evaluate_accounts (f : Frame) (limit : Nat) (φ : Formula) (a : String) :
    f.Accounts limit φ a (f.evaluate limit φ a) ∧
    (∀ o : Enumeration f, f.Accounts limit φ a (o.evaluate limit φ a)) ∧
    ∀ g : Frame, (∀ b c, f.Trusts b c ↔ g.Trusts b c) →
      ((∃ x, f.evaluate limit φ a = .ok x) ↔ ∃ x, g.evaluate limit φ a = .ok x) := by
  have hall (f : Frame) : f.Accounts limit φ a (f.evaluate limit φ a) := by
    rw [← Enumeration.evaluate_byName]
    exact accounts_of_enumeration _ limit φ a
  refine ⟨hall f, fun o => accounts_of_enumeration o limit φ a, fun g hg => ?_⟩
  rw [(hall f).ok_iff, (hall g).ok_iff]
  exact hasDegree_congr hg

/-- Two agents that trust each other, and a third one that trusts no one. The one that trusts it
does so to no degree. -/
def circle : Frame :=
  ((empty.setTrust "a" "b" Degree.one).setTrust "b" "a" Degree.one).setTrust "b" "c" Degree.zero

/-- The circle with another degree and other trust. -/
def doubtfulCircle : Frame :=
  (circle.setTrust "a" "b" Degree.nan).setDegree "p" "a" Degree.one

/-- That it is possible for a variable to be necessary. -/
def possiblyNecessary : Formula :=
  .unary (.modal .diamond) (.unary (.modal .box) (.var "p"))

/-- Two modalities stay in the circle, and a third one leads to the agent outside. -/
theorem evaluate_accounts_circle :
    (∃ x, circle.evaluate 3 possiblyNecessary "a" = .ok x) ∧
    (∃ x, doubtfulCircle.evaluate 3 possiblyNecessary "a" = .ok x) ∧
    circle.evaluate 4 (.unary (.modal .diamond) possiblyNecessary) "a" = .error (.noTrust "c") ∧
    (∃ j < 3, circle.Reaches j "a" "c") ∧ ¬ circle.IsTrusting "c" := by
  have htrusts : ∀ b c, circle.Trusts b c ↔ doubtfulCircle.Trusts b c := by
    intro b c
    refine ⟨fun h => trusts_setTrust.mpr (.inr h), fun h => ?_⟩
    rcases trusts_setTrust.mp h with ⟨rfl, rfl⟩ | h
    · simp [circle, trusts_setTrust]
    · exact h
  obtain ⟨-, -, hsame⟩ := evaluate_accounts circle 3 possiblyNecessary "a"
  have hok : ∃ x, circle.evaluate 3 possiblyNecessary "a" = .ok x := ⟨Degree.zero, rfl⟩
  obtain ⟨hdeeper, -⟩ :=
    evaluate_accounts circle 4 (.unary (.modal .diamond) possiblyNecessary) "a"
  have hfault : circle.evaluate 4 (.unary (.modal .diamond) possiblyNecessary) "a" =
      .error (.noTrust "c") := rfl
  obtain ⟨j, hj, hreach, htrust⟩ := hdeeper.noTrust "c" hfault
  exact ⟨hok, (hsame doubtfulCircle htrusts).mp hok, hfault, ⟨j, hj, hreach⟩, htrust⟩

end Frame

end Trust

end TrustLogic
