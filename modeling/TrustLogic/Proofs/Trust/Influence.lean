import TrustLogic.Proofs.Trust.Reference

/-!
# Who has influence on a degree

A formula has a degree at an agent because others are asked, and those ask others in turn. Nobody is
asked but those who are reached by steps of trust, and of these steps there are no more than
modalities nest. So whoever is further away, or is not reached at all, has no influence. No trust in
others and no degree that is written for such an agent makes a difference, to whether there is a
degree as little as to which one it is.

* `TrustLogic.Trust.Frame.Near` – being reached by fewer than a given number of steps.
* `TrustLogic.Trust.Frame.AgreeAround` – two frames that do not differ near an agent. It is indexed
  by the number of steps, and a step of trust leads to an agent around which one step less is agreed
  on (`TrustLogic.Trust.Frame.AgreeAround.step`). Trust may lead in circles, and an agent that is
  met again is met with fewer steps left, so nothing has to be known of the circles.
* `TrustLogic.Trust.Write` – what can be written into a frame, and `TrustLogic.Trust.Frame.Spares`,
  the writes that concern no one who is asked.

Trust counts up to one step less than degrees do: at the last agents on the way only degrees are
asked for, and whom they trust does not matter.
-/

namespace TrustLogic.Trust

open Degree (alike_indiscernible standing)

/-- **The same verdict**: two degrees that are equal up to the sign of zero, or two faults. -/
structure SameVerdict (r r' : Except EvalError Degree) : Prop where
  /-- Either result is a degree if the other one is. -/
  ok_iff : (∃ x, r = .ok x) ↔ ∃ y, r' = .ok y
  /-- The degrees are equal up to the sign of zero. -/
  alike : ∀ x y, r = .ok x → r' = .ok y → x.Alike y

namespace Frame

/-! ### Near an agent -/

/-- The second agent is reached from the first one by a path of fewer than `n` steps of trust. -/
def Near (f : Frame) (n : Nat) (a b : String) : Prop :=
  ∃ j < n, f.Reaches j a b

variable {f g : Frame} {n : Nat} {a b c : String} {φ : Formula}

theorem near_self (f : Frame) (n : Nat) (a : String) : f.Near (n + 1) a a :=
  ⟨0, Nat.zero_lt_succ n, rfl⟩

theorem Near.step (hb : f.Trusts a b) (hc : f.Near n b c) : f.Near (n + 1) a c := by
  obtain ⟨j, hj, hreach⟩ := hc
  exact ⟨j + 1, Nat.succ_lt_succ hj, b, hb, hreach⟩

/-! ### Agreement -/

variable {γ : Type} {view : Degree → γ} {names : List String}

/-- **Two frames agree around an agent**, for the given variables and number of steps. All that
counts of a number written in a frame is what `view` tells of it: everything if `view` is the
identity, and all but the sign of zero if it is `TrustLogic.Degree.standing`. -/
structure AgreeAround (view : Degree → γ) (names : List String) (f g : Frame) (n : Nat)
    (a : String) : Prop where
  /-- Whoever is reached by fewer than `n` steps trusts the same agents, and to the same degree. -/
  trust : ∀ b, f.Near n a b →
    ∀ c, (f.trust.get? b c).map view = (g.trust.get? b c).map view
  /-- Whoever is reached by at most `n` steps holds the variables to the same degrees. -/
  degree : ∀ b, f.Near (n + 1) a b →
    ∀ name ∈ names, view (f.degree name b) = view (g.degree name b)

theorem trusted_eq_toList (f : Frame) (a : String) :
    f.trusted a = ((f.trusted? a).getD ∅).toList := by
  rw [trusted]
  cases f.trusted? a <;> simp

theorem getElem?_trusted? (f : Frame) (a b : String) :
    ((f.trusted? a).getD ∅)[b]? = f.trust.get? a b := by
  rw [Grid.get?, trusted?]
  cases f.trust[a]? <;> simp

/-- The agents that an agent trusts are listed alike where it trusts them alike. -/
theorem map_trusted_eq (h : ∀ c, (f.trust.get? a c).map view = (g.trust.get? a c).map view) :
    (f.trusted a).map (fun entry => (entry.1, view entry.2)) =
      (g.trusted a).map fun entry => (entry.1, view entry.2) := by
  have htable : ((f.trusted? a).getD ∅).map (fun _ x => view x) =
      ((g.trusted? a).getD ∅).map fun _ x => view x := by
    refine Std.ExtTreeMap.ext_getElem? fun c => ?_
    rw [Std.ExtTreeMap.getElem?_map, Std.ExtTreeMap.getElem?_map, getElem?_trusted?,
      getElem?_trusted?, h c]
  rw [trusted_eq_toList, trusted_eq_toList, ← Std.ExtTreeMap.toList_map (f := fun _ x => view x),
    htable, Std.ExtTreeMap.toList_map]

/-- A modality comes to the same if the same agents are trusted, and its operand comes to the same
at all of them. -/
theorem reference_modal_alike
    (htrust : ∀ c, (f.trust.get? a c).map standing = (g.trust.get? a c).map standing)
    (hφ : ∀ b, f.Trusts a b → (f.reference φ b).Alike (g.reference φ b)) (op : Modality) :
    (f.reference (.unary (.modal op) φ) a).Alike (g.reference (.unary (.modal op) φ) a) := by
  have hlist := map_trusted_eq htrust
  rw [← List.forall₂_eq_eq_eq, List.forall₂_map_left_iff, List.forall₂_map_right_iff] at hlist
  rw [reference_modal, reference_modal]
  refine alike_gathered ?_ op
  simp only [Multiset.map_coe, List.map_map]
  refine congrArg _ ?_
  -- first other degrees at the agents that the one frame lists, then the other list
  calc (f.trusted a).map (standing ∘ fun entry => weigh op entry.2 (f.reference φ entry.1))
    _ = (f.trusted a).map (standing ∘ fun entry => weigh op entry.2 (g.reference φ entry.1)) := by
      refine List.map_congr_left fun entry hentry => ?_
      exact alike_indiscernible.weigh op (.refl _) (hφ entry.1 (trusts_iff.mpr ⟨entry.2, hentry⟩))
    _ = (g.trusted a).map (standing ∘ fun entry => weigh op entry.2 (g.reference φ entry.1)) := by
      rw [← List.forall₂_eq_eq_eq, List.forall₂_map_left_iff, List.forall₂_map_right_iff]
      refine hlist.imp fun entry entry' hentry => ?_
      obtain ⟨hagent, hweight⟩ := Prod.mk.inj hentry
      rw [Function.comp_apply, Function.comp_apply, hagent]
      exact alike_indiscernible.weigh op hweight (.refl _)

namespace AgreeAround

theorem refl (view : Degree → γ) (names : List String) (f : Frame) (n : Nat) (a : String) :
    AgreeAround view names f f n a :=
  ⟨fun _ _ _ => rfl, fun _ _ _ _ => rfl⟩

/-- **A step of trust leads to agreement around the next agent**, with one step less. -/
theorem step (h : AgreeAround view names f g (n + 1) a) (hb : f.Trusts a b) :
    AgreeAround view names f g n b where
  trust c hc := h.trust c (hc.step hb)
  degree c hc := h.degree c (hc.step hb)

theorem trusts_iff (h : AgreeAround view names f g (n + 1) a) : f.Trusts a b ↔ g.Trusts a b := by
  have hb := congrArg Option.isSome (h.trust a (near_self f n a) b)
  simp only [Option.isSome_map] at hb
  simp only [Frame.trusts_iff, mem_trusted_iff, ← Option.isSome_iff_exists, hb]

/-- **Agreement on where there is a degree.** -/
theorem hasDegree_iff (h : AgreeAround view names f g n a) (hφ : φ.modalDepth ≤ n) {room : Nat} :
    f.HasDegree room φ a ↔ g.HasDegree room φ a := by
  induction room generalizing φ n a with
  | zero => exact iff_of_false not_hasDegree_zero not_hasDegree_zero
  | succ room ih =>
    cases φ with
    | var name => exact iff_of_true (hasDegree_var name) (hasDegree_var name)
    | unary op φ =>
      cases op with
      | negation =>
        rw [hasDegree_negation, hasDegree_negation]
        exact ih h hφ
      | modal op =>
        -- a modality uses up one of the steps
        obtain ⟨n, rfl⟩ : ∃ k, n = k + 1 := Nat.exists_eq_add_one.mpr (Nat.zero_lt_of_lt hφ)
        rw [hasDegree_modal, hasDegree_modal, isTrusting_iff, isTrusting_iff]
        refine and_congr (exists_congr fun b => h.trusts_iff) (forall_congr' fun b => ?_)
        rw [← h.trusts_iff]
        exact imp_congr_right fun hb => ih (h.step hb) (Nat.le_of_succ_le_succ hφ)
    | binary op φ ψ =>
      obtain ⟨hφ, hψ⟩ := Nat.max_le.mp hφ
      rw [hasDegree_binary, hasDegree_binary, ih h hφ, ih h hψ]

/-- **Agreement on the degree**, up to the sign of zero. -/
theorem reference_alike (h : AgreeAround standing names f g n a) (hφ : φ.modalDepth ≤ n)
    (hnames : ∀ name ∈ φ.names, name ∈ names) : (f.reference φ a).Alike (g.reference φ a) := by
  induction φ generalizing n a with
  | var name => exact h.degree a (near_self f n a) name (hnames name (List.mem_singleton_self name))
  | unary op φ ih =>
    cases op with
    | negation => exact alike_indiscernible.negation (ih h hφ hnames)
    | modal op =>
      obtain ⟨n, rfl⟩ : ∃ k, n = k + 1 := Nat.exists_eq_add_one.mpr (Nat.zero_lt_of_lt hφ)
      refine reference_modal_alike (h.trust a (near_self f n a)) (fun b hb => ?_) op
      exact ih (h.step hb) (Nat.le_of_succ_le_succ hφ) hnames
  | binary op φ ψ ihφ ihψ =>
    obtain ⟨hφ, hψ⟩ := Nat.max_le.mp hφ
    rw [reference_binary, reference_binary]
    refine alike_indiscernible.binary op (ihφ h hφ fun name hname => ?_)
      (ihψ h hψ fun name hname => ?_)
    · exact hnames name (List.mem_append_left _ hname)
    · exact hnames name (List.mem_append_right _ hname)

end AgreeAround

end Frame

namespace Enumeration

variable {f g : Frame} {φ : Formula} {n : Nat} {a : String}

/-- Two frames that agree around an agent come to the same verdict, in whatever order each of them
lists the trusted agents. -/
theorem sameVerdict (o : Enumeration f) (o' : Enumeration g) (limit : Nat)
    (h : f.AgreeAround standing φ.names g φ.modalDepth a) :
    SameVerdict (o.evaluate limit φ a) (o'.evaluate limit φ a) where
  ok_iff := by
    rw [evaluate, evaluate, o.exists_degreeOf_eq_ok_iff, o'.exists_degreeOf_eq_ok_iff,
      h.hasDegree_iff (Nat.le_refl _)]
  alike x y hx hy := by
    have hreference := h.reference_alike (Nat.le_refl _) fun _ hname => hname
    exact (o.degreeOf_alike hx).trans (hreference.trans (o'.degreeOf_alike hy).symm)

/-- **Not even a fault changes**, nor the sign of a zero, if the trusted agents are the very same,
come in the same order and hold the variables to the same degrees. -/
theorem degreeOf_congr (o : Enumeration f) (o' : Enumeration g) {names : List String}
    (horder : ∀ b, f.Near n a b → o.entries b = o'.entries b)
    (hdegree : ∀ b, f.Near (n + 1) a b → ∀ name ∈ names, f.degree name b = g.degree name b)
    (hφ : φ.modalDepth ≤ n) (hnames : ∀ name ∈ φ.names, name ∈ names) (limit room : Nat) :
    o.degreeOf limit room φ a = o'.degreeOf limit room φ a := by
  induction room generalizing φ n a with
  | zero => rfl
  | succ room ih =>
    cases φ with
    | var name =>
      have hself := hdegree a (f.near_self n a) name (hnames name (List.mem_singleton_self name))
      rw [degreeOf, degreeOf, hself]
    | unary op φ =>
      cases op with
      | negation => exact congrArg (Except.map Degree.negation) (ih horder hdegree hφ hnames)
      | modal op =>
        obtain ⟨n, rfl⟩ : ∃ k, n = k + 1 := Nat.exists_eq_add_one.mpr (Nat.zero_lt_of_lt hφ)
        have hself : o.entries a = o'.entries a := horder a (f.near_self n a)
        rw [degreeOf, degreeOf, modal, modal, ← hself]
        refine congrArg (Except.bind · (gatherAll op a)) (mapM_congr_left fun entry hentry => ?_)
        have hb : f.Trusts a entry.1 := o.trusts_iff.mpr ⟨entry.2, hentry⟩
        rw [ih (fun c hc => horder c (hc.step hb)) (fun c hc => hdegree c (hc.step hb))
          (Nat.le_of_succ_le_succ hφ) hnames]
    | binary op φ ψ =>
      obtain ⟨hφ, hψ⟩ := Nat.max_le.mp hφ
      rw [degreeOf, degreeOf,
        ih horder hdegree hφ fun name hname => hnames name (List.mem_append_left _ hname),
        ih horder hdegree hψ fun name hname => hnames name (List.mem_append_right _ hname)]

end Enumeration

/-! ### Writing -/

/-- Something to be written into a frame. -/
inductive Write
  /-- The degree to which an agent holds a variable. -/
  | degree (name agent : String) (x : Degree)
  /-- The trust of one agent in another. -/
  | trust (truster trustee : String) (x : Degree)

namespace Frame

variable {f g : Frame} {φ : Formula} {n : Nat} {a : String}

/-- The frame after one write. -/
def write (f : Frame) : Write → Frame
  | .degree name agent x => f.setDegree name agent x
  | .trust truster trustee x => f.setTrust truster trustee x

/-- The frame after some writes, one after the other. -/
def writes (f : Frame) (ws : List Write) : Frame :=
  ws.foldl write f

/-- **A write spares whoever is asked** about a formula at an agent: it says nothing of whom an
agent trusts that is reached by fewer steps than modalities nest, and nothing of the degree of a
variable of the formula at an agent that is reached by that number of steps at most. -/
def Spares (f : Frame) (φ : Formula) (a : String) : Write → Prop
  | .degree name b _ => ¬ (f.Near (φ.modalDepth + 1) a b ∧ name ∈ φ.names)
  | .trust b _ _ => ¬ f.Near φ.modalDepth a b

theorem degree_setDegree (f : Frame) (name agent : String) (x : Degree) (name' agent' : String) :
    (f.setDegree name agent x).degree name' agent'
      = if name = name' ∧ agent = agent' then x else f.degree name' agent' := by
  rw [degree, setDegree, Grid.get?_set, degree]
  split <;> rfl

/-- A write that spares whoever is asked leaves the agreement with a frame as it is. -/
theorem AgreeAround.write (h : f.AgreeAround id φ.names g φ.modalDepth a) {w : Write}
    (hw : f.Spares φ a w) : f.AgreeAround id φ.names (g.write w) φ.modalDepth a := by
  cases w with
  | degree name agent x =>
    refine ⟨h.trust, fun b hb name' hname' => (h.degree b hb name' hname').trans ?_⟩
    have hne : ¬ (name = name' ∧ agent = b) := by
      rintro ⟨rfl, rfl⟩
      exact hw ⟨hb, hname'⟩
    rw [Frame.write, degree_setDegree, if_neg hne]
  | trust truster trustee x =>
    refine ⟨fun b hb c => (h.trust b hb c).trans ?_, h.degree⟩
    have hne : ¬ (truster = b ∧ trustee = c) := by
      rintro ⟨rfl, -⟩
      exact hw hb
    rw [Frame.write, setTrust, Grid.get?_set, if_neg hne]

theorem AgreeAround.writes (h : f.AgreeAround id φ.names g φ.modalDepth a) {ws : List Write}
    (hws : ∀ w ∈ ws, f.Spares φ a w) :
    f.AgreeAround id φ.names (g.writes ws) φ.modalDepth a := by
  induction ws generalizing g with
  | nil => exact h
  | cons w ws ih =>
    rw [List.forall_mem_cons] at hws
    exact ih (h.write hws.1) hws.2

/-- **Whoever is not asked has no influence.** Two frames that agree around an agent, on trust by
fewer steps than modalities nest and on degrees by one more, come to the same verdict there, whatever
else is written in them. This holds of every order in which the trusted agents are asked, which may
differ from frame to frame. In particular writes that spare whoever is asked never change a result,
be it a degree or a fault, as long as the agents that are asked are asked in the order as before. -/
theorem outsiders_without_influence (f : Frame) (limit : Nat) (φ : Formula) (a : String) :
    (∀ g : Frame, f.AgreeAround standing φ.names g φ.modalDepth a →
      SameVerdict (f.evaluate limit φ a) (g.evaluate limit φ a) ∧
      ∀ (o : Enumeration f) (o' : Enumeration g),
        SameVerdict (o.evaluate limit φ a) (o'.evaluate limit φ a)) ∧
    ∀ ws : List Write, (∀ w ∈ ws, f.Spares φ a w) →
      (f.writes ws).evaluate limit φ a = f.evaluate limit φ a ∧
      ∀ (o : Enumeration f) (o' : Enumeration (f.writes ws)),
        (∀ b, f.Near φ.modalDepth a b → o.entries b = o'.entries b) →
        o'.evaluate limit φ a = o.evaluate limit φ a := by
  refine ⟨fun g hg => ⟨?_, fun o o' => o.sameVerdict o' limit hg⟩, fun ws hws => ?_⟩
  · rw [← Enumeration.evaluate_byName, ← Enumeration.evaluate_byName]
    exact Enumeration.sameVerdict _ _ limit hg
  · have hagree := (AgreeAround.refl id φ.names f φ.modalDepth a).writes hws
    have horders (o : Enumeration f) (o' : Enumeration (f.writes ws))
        (horder : ∀ b, f.Near φ.modalDepth a b → o.entries b = o'.entries b) :
        o'.evaluate limit φ a = o.evaluate limit φ a :=
      (o.degreeOf_congr o' horder hagree.degree (Nat.le_refl _) (fun _ hname => hname) limit
        limit).symm
    refine ⟨?_, horders⟩
    rw [← Enumeration.evaluate_byName, ← Enumeration.evaluate_byName]
    refine horders _ _ fun b hb => ?_
    have htrusted : f.trusted b = (f.writes ws).trusted b := by
      simpa using map_trusted_eq (hagree.trust b hb)
    exact htrusted

/-- The agent `a` trusts `b`, who holds a variable to the full. -/
def insiders : Frame := (empty.setTrust "a" "b" Degree.one).setDegree "p" "b" Degree.one

/-- What an agent `c` has to say that no one has asked, and what `a` does not ask of `b`. -/
def hearsay : List Write :=
  [.trust "c" "a" Degree.one, .trust "c" "b" Degree.nan, .degree "p" "c" Degree.nan,
    .degree "q" "b" Degree.nan, .trust "b" "c" Degree.one]

theorem near_insiders {b : String} (h : insiders.Near 2 "a" b) : b = "a" ∨ b = "b" := by
  obtain ⟨j, hj, hreach⟩ := h
  have hj : j = 0 ∨ j = 1 := by omega
  rcases hj with rfl | rfl
  · exact .inl hreach.symm
  · obtain ⟨c, hc, rfl⟩ := hreach
    rcases trusts_setTrust.mp hc with ⟨-, rfl⟩ | ⟨t, ht, -⟩
    · exact .inr rfl
    · simp [trusted?, empty] at ht

/-- Neither the sign of a zero makes a difference nor what is written for an agent that is not
asked. -/
theorem outsiders_without_influence_insiders :
    SameVerdict (insiders.evaluate 2 possibly "a")
      ((insiders.setDegree "p" "a" (.number true 0)).evaluate 2 possibly "a") ∧
    (insiders.writes hearsay).evaluate 2 possibly "a" = insiders.evaluate 2 possibly "a" ∧
    insiders.evaluate 2 possibly "a" = .ok Degree.one := by
  obtain ⟨hagree, hwrites⟩ := outsiders_without_influence insiders 2 possibly "a"
  have hzero : insiders.AgreeAround standing possibly.names
      (insiders.setDegree "p" "a" (.number true 0)) possibly.modalDepth "a" := by
    refine ⟨fun b hb c => rfl, fun b hb name hname => ?_⟩
    obtain rfl := List.mem_singleton.mp hname
    rw [degree_setDegree]
    rcases near_insiders hb with rfl | rfl
    · rfl
    · rw [if_neg (by decide)]
  have hspared : ∀ w ∈ hearsay, insiders.Spares possibly "a" w := by
    have hfar : ¬ insiders.Near 2 "a" "c" := fun h => absurd (near_insiders h) (by decide)
    have hother : ∀ b, b ≠ "a" → ¬ insiders.Near 1 "a" b := by
      rintro b hb ⟨j, hj, hreach⟩
      obtain rfl : j = 0 := by omega
      exact hb hreach.symm
    simp only [hearsay, List.forall_mem_cons, Spares]
    refine ⟨hother "c" (by decide), hother "c" (by decide), fun h => hfar h.1, ?_,
      hother "b" (by decide), by simp⟩
    rintro ⟨-, hname⟩
    simp [possibly, Formula.names] at hname
  exact ⟨(hagree _ hzero).1, (hwrites _ hspared).1, rfl⟩

end Frame

end TrustLogic.Trust
