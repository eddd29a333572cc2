import TrustLogic.Proofs.Kripke.Meaning
import TrustLogic.Proofs.Kripke.Rebuilding

/-!
# Worlds that cannot be told apart

Evaluating a formula computes the evidence at every world of a model, also at those that have
nothing to do with the one that is asked about. Still the result depends on nothing but what is seen
from this world by looking as often as modalities nest. How many worlds there are does not matter
for it, nor in which order they come, nor which of them are copies of each other.

* `TrustLogic.Kripke.Model.BoundedBisimulation` – relations between the worlds of two models, one
  for each number of looks that are left. Related worlds have the same evidence for variables, and
  whatever is in sight of the one is related to something in sight of the other.
* `TrustLogic.Kripke.Model.Near`, `TrustLogic.Kripke.Model.AgreeAround` – the worlds that are found
  by fewer than a given number of looks, and models that do not differ there; with
  `TrustLogic.Kripke.Model.Spares`, the edits that concern no such world.

Evidence agrees by induction on the formula, where a modality moves on to the next relation of the
family. Faults do not depend on worlds at all. They agree because a single pair of related worlds
is enough to tell which variables have entries: in a model that comes about a row has an entry for
every world or there is no row.
-/

namespace TrustLogic.Kripke.Model

variable {m m' : Model} {names : List String} {n k : Nat} {v v' w w' : Nat} {φ : Formula}

/-! ### Bounded bisimulations -/

/-- **A bounded bisimulation** between two models, for some variables and `n` looks: `Z k` relates
worlds that cannot be told apart by looking `k` times. -/
structure BoundedBisimulation (m m' : Model) (names : List String) (n : Nat)
    (Z : Nat → Nat → Nat → Prop) : Prop where
  /-- Only worlds of the models are related. -/
  inRange : ∀ k ≤ n, ∀ v v', Z k v v' → v < m.worlds ∧ v' < m'.worlds
  /-- Related worlds have the same entries of the variables, or both have none. -/
  atoms : ∀ k ≤ n, ∀ v v', Z k v v' →
    ∀ s, ∀ name ∈ names, m.value? s name v = m'.value? s name v'
  /-- What is in sight of the one world is related to something in sight of the other. -/
  forth : ∀ k < n, ∀ v v', Z (k + 1) v v' →
    ∀ w, m.sees v w = true → ∃ w', m'.sees v' w' = true ∧ Z k w w'
  /-- And conversely. -/
  back : ∀ k < n, ∀ v v', Z (k + 1) v v' →
    ∀ w', m'.sees v' w' = true → ∃ w, m.sees v w = true ∧ Z k w w'

/-- Entries at one world each tell which variables have entries at all. -/
theorem WellShaped.variableFault?_congr (hm : m.WellShaped) (hm' : m'.WellShaped)
    (hv : v < m.worlds) (hv' : v' < m'.worlds) {name : String}
    (h : ∀ s, m.value? s name v = m'.value? s name v') :
    m.variableFault? name = m'.variableFault? name := by
  refine Model.variableFault?_congr fun s => ?_
  rw [← not_iff_not, ← hm.value?_eq_none_iff s name hv, ← hm'.value?_eq_none_iff s name hv', h s]

namespace BoundedBisimulation

variable {Z : Nat → Nat → Nat → Prop}

/-- **Related worlds have the same evidence** for every formula whose modalities nest no deeper than
the relation goes. -/
theorem meaning_eq (hZ : BoundedBisimulation m m' names n Z) (hm : m.WellShaped)
    (hm' : m'.WellShaped) (hk : k ≤ n) (hφ : φ.modalDepth ≤ k)
    (hnames : ∀ name ∈ φ.names, name ∈ names) (h : Z k v v') :
    m.meaning φ v = m'.meaning φ v' := by
  induction φ generalizing k v v' with
  | var name =>
    have hname : name ∈ names := hnames name (List.mem_singleton_self name)
    rw [meaning, meaning, hZ.atoms k hk v v' h .pro name hname,
      hZ.atoms k hk v v' h .con name hname]
  | unary op φ ih =>
    cases op with
    | negation =>
      have hoperand := ih hk hφ hnames h
      rw [meaning, meaning, hoperand]
    | modal op =>
      -- the worlds in sight are related by the next relation
      obtain ⟨k, rfl⟩ : ∃ i, k = i + 1 := Nat.exists_eq_add_one.mpr (Nat.zero_lt_of_lt hφ)
      have hseen {w w' : Nat} (hw : Z k w w') : m.meaning φ w = m'.meaning φ w' :=
        ih (Nat.le_of_succ_le hk) (Nat.le_of_succ_le_succ hφ) hnames hw
      refine meaning_modal_congr (fun a => ?_) op
      simp only [List.mem_map, hm.mem_inSight_iff, hm'.mem_inSight_iff]
      constructor
      · rintro ⟨w, hw, rfl⟩
        obtain ⟨w', hw', hZw⟩ := hZ.forth k hk v v' h w hw
        exact ⟨w', hw', (hseen hZw).symm⟩
      · rintro ⟨w', hw', rfl⟩
        obtain ⟨w, hw, hZw⟩ := hZ.back k hk v v' h w' hw'
        exact ⟨w, hw, hseen hZw⟩
  | binary op φ ψ ihφ ihψ =>
    obtain ⟨hφ, hψ⟩ := Nat.max_le.mp hφ
    rw [meaning, meaning,
      ihφ hk hφ (fun name hname => hnames name (List.mem_append_left _ hname)) h,
      ihψ hk hψ (fun name hname => hnames name (List.mem_append_right _ hname)) h]

/-- **Related worlds cannot be told apart by evaluating.** -/
theorem evaluate_eq (hZ : BoundedBisimulation m m' φ.names n Z) (hm : m.WellShaped)
    (hm' : m'.WellShaped) (hφ : φ.modalDepth ≤ n) (h : Z n w w') (limit : Nat) :
    m.evaluate limit φ w = m'.evaluate limit φ w' := by
  obtain ⟨hw, hw'⟩ := hZ.inRange n (Nat.le_refl n) w w' h
  have hfault : m.firstFault? limit φ = m'.firstFault? limit φ :=
    faultFrom?_congr fun name hname => hm.variableFault?_congr hm' hw hw' fun s =>
      hZ.atoms n (Nat.le_refl n) w w' h s name hname
  rw [hm.evaluate_of_lt limit φ hw, hm'.evaluate_of_lt limit φ hw', hfault,
    hZ.meaning_eq hm hm' (Nat.le_refl n) hφ (fun _ hname => hname) h]

end BoundedBisimulation

/-! ### Near a world -/

/-- The second world is found from the first one by looking fewer than `n` times. -/
def Near (m : Model) : Nat → Nat → Nat → Prop
  | 0, _, _ => False
  | n + 1, v, w => v = w ∨ ∃ u, m.sees v u = true ∧ m.Near n u w

/-- **Two models agree around a world**, for the given variables and number of looks. -/
structure AgreeAround (names : List String) (m m' : Model) (n v : Nat) : Prop where
  /-- Whatever is found by fewer than `n` looks has the same worlds in sight. -/
  sight : ∀ u, m.Near n v u → ∀ w, m.sees u w = m'.sees u w
  /-- Whatever is found by at most `n` looks has the same entries of the variables. -/
  values : ∀ u, m.Near (n + 1) v u →
    ∀ s, ∀ name ∈ names, m.value? s name u = m'.value? s name u

namespace AgreeAround

theorem refl (names : List String) (m : Model) (n v : Nat) : AgreeAround names m m n v :=
  ⟨fun _ _ _ => rfl, fun _ _ _ _ _ => rfl⟩

/-- Looking leads to agreement around the world that is seen, with one look less. -/
theorem step (h : AgreeAround names m m' (n + 1) v) (hw : m.sees v w = true) :
    AgreeAround names m m' n w where
  sight u hu := h.sight u (.inr ⟨w, hw, hu⟩)
  values u hu := h.values u (.inr ⟨w, hw, hu⟩)

/-- **Agreement is a bisimulation** of worlds with themselves. -/
theorem boundedBisimulation (hm : m.WellShaped) (hworlds : m'.worlds = m.worlds)
    (names : List String) (n : Nat) :
    BoundedBisimulation m m' names n fun k v v' =>
      v' = v ∧ v < m.worlds ∧ AgreeAround names m m' k v where
  inRange := by
    rintro k hk _ v ⟨rfl, hv, -⟩
    exact ⟨hv, hworlds ▸ hv⟩
  atoms := by
    rintro k hk _ v ⟨rfl, -, h⟩
    exact h.values v (.inl rfl)
  forth := by
    rintro k hk _ v ⟨rfl, -, h⟩ w hw
    exact ⟨w, h.sight v (.inl rfl) w ▸ hw, rfl, hm.lt_of_sees hw, h.step hw⟩
  back := by
    rintro k hk _ v ⟨rfl, -, h⟩ w hw'
    have hw : m.sees v w = true := h.sight v (.inl rfl) w ▸ hw'
    exact ⟨w, hw, rfl, hm.lt_of_sees hw, h.step hw⟩

theorem evaluate_eq (h : AgreeAround φ.names m m' φ.modalDepth w) (hm : m.WellShaped)
    (hm' : m'.WellShaped) (hworlds : m'.worlds = m.worlds) (limit : Nat) :
    m.evaluate limit φ w = m'.evaluate limit φ w := by
  rcases Nat.lt_or_ge w m.worlds with hw | hw
  · exact (boundedBisimulation hm hworlds φ.names φ.modalDepth).evaluate_eq hm hm'
      (Nat.le_refl _) ⟨rfl, hw, h⟩ limit
  · rw [evaluate_of_le hw, evaluate_of_le (hworlds ▸ hw), hworlds]

end AgreeAround

/-! ### Edits elsewhere -/

/-- **An edit spares the worlds near one that is asked about**: it says nothing of what is in sight
of those that are found by fewer looks than modalities nest, and leaves the entries of the formula's
variables at those that are found by that number of looks at most as they are. -/
def Spares (m : Model) (φ : Formula) (w : Nat) : Edit → Prop
  | .relation v _ _ => ¬ m.Near φ.modalDepth w v
  | .values s name values => name ∈ φ.names →
    ∀ v, m.Near (φ.modalDepth + 1) w v → values[v]?.map bitOf = m.value? s name v
  | .value _ name v _ => ¬ (name ∈ φ.names ∧ m.Near (φ.modalDepth + 1) w v)

theorem AgreeAround.edited (h : AgreeAround φ.names m m' φ.modalDepth w) {e : Edit}
    (he : m.Spares φ w e) : AgreeAround φ.names m (m'.edited e) φ.modalDepth w := by
  cases e with
  | relation source target i =>
    refine ⟨fun u hu x => (h.sight u hu x).trans ?_, h.values⟩
    have hne : source ≠ u := by
      rintro rfl
      exact he hu
    exact (sees_edited_relation_of_ne hne target x i).symm
  | values s name values =>
    refine ⟨fun u hu x => (h.sight u hu x).trans (sees_withTable ..).symm, ?_⟩
    intro u hu s' name' hname'
    rw [value?_edited_values]
    split
    · next hsame =>
      obtain ⟨rfl, rfl⟩ := hsame
      exact (he hname' u hu).symm
    · exact h.values u hu s' name' hname'
  | value s name v i =>
    refine ⟨fun u hu x => (h.sight u hu x).trans (sees_withTable ..).symm, ?_⟩
    intro u hu s' name' hname'
    rw [value?_edited_value_of_ne ?_ i]
    · exact h.values u hu s' name' hname'
    · rintro ⟨-, rfl, rfl⟩
      exact he ⟨hname', hu⟩

/-- **Edits one after another**, of which some may be refused. -/
theorem AgreeAround.edits (h : AgreeAround φ.names m m' φ.modalDepth w) {es : List Edit}
    (hes : ∀ e ∈ es, m.Spares φ w e) :
    AgreeAround φ.names m (m'.edits es).2 φ.modalDepth w := by
  induction es generalizing m' with
  | nil => exact h
  | cons e es ih =>
    rw [List.forall_mem_cons] at hes
    cases hfault : m'.editFault? e with
    | none =>
      rw [edits_cons_made hfault]
      exact ih (h.edited hes.1) hes.2
    | some fault =>
      rw [edits_cons_refused hfault]
      exact ih h hes.2

theorem WellShaped.edits (hm : m.WellShaped) (es : List Edit) :
    (m.edits es).2.WellShaped ∧ (m.edits es).2.worlds = m.worlds := by
  induction es generalizing m with
  | nil => exact ⟨hm, rfl⟩
  | cons e es ih =>
    cases hfault : m.editFault? e with
    | none =>
      rw [edits_cons_made hfault]
      obtain ⟨hshape, hworlds⟩ := ih (hm.edited hfault)
      exact ⟨hshape, hworlds.trans (worlds_edited m e)⟩
    | some fault =>
      rw [edits_cons_refused hfault]
      exact ih hm

/-- **Evaluating respects bounded bisimulations.** In two models that come about, of the same size
or not, related worlds have the same result for every formula whose modalities nest no deeper than
the bisimulation goes, evidence or fault, under every limit. In particular the result does not
change if two models of the same size differ only in what is in sight of worlds that are not found
from the given one by fewer looks than modalities nest, and in entries at worlds that are not found
by that number of looks; and it does not change by edits of that kind. -/
theorem evaluate_bisimilar (hm : m.Reachable) (φ : Formula) (limit : Nat) :
    (∀ m' : Model, m'.Reachable →
      ∀ (n : Nat) (Z : Nat → Nat → Nat → Prop), φ.modalDepth ≤ n →
        BoundedBisimulation m m' φ.names n Z →
        ∀ w w', Z n w w' → m.evaluate limit φ w = m'.evaluate limit φ w') ∧
    (∀ m' : Model, m'.Reachable → m'.worlds = m.worlds →
      ∀ w, AgreeAround φ.names m m' φ.modalDepth w →
        m.evaluate limit φ w = m'.evaluate limit φ w) ∧
    ∀ (es : List Edit) (w : Nat), (∀ e ∈ es, m.Spares φ w e) →
      m.evaluate limit φ w = (m.edits es).2.evaluate limit φ w := by
  refine ⟨fun m' hm' n Z hφ hZ w w' hw => ?_, fun m' hm' hworlds w h => ?_, fun es w hes => ?_⟩
  · exact hZ.evaluate_eq hm.wellShaped hm'.wellShaped hφ hw limit
  · exact h.evaluate_eq hm.wellShaped hm'.wellShaped hworlds limit
  · have hagree := (AgreeAround.refl φ.names m φ.modalDepth w).edits hes
    obtain ⟨hshape, hworlds⟩ := hm.wellShaped.edits es
    exact hagree.evaluate_eq hm.wellShaped hshape hworlds limit

/-- A world that sees one where there is evidence for a variable. -/
def single : Draft :=
  .ofCalls 2 [.relation [[0, 1], [0, 0]], .values .pro "p" [0, 1], .values .con "p" [0, 0]]

/-- The same with a copy of the world that is seen, and in another order. -/
def doubled : Draft :=
  .ofCalls 3 [.relation [[0, 0, 0], [0, 0, 0], [1, 1, 0]], .values .pro "p" [1, 1, 0],
    .values .con "p" [0, 0, 0]]

theorem sees_single {w : Nat} : single.model.sees 0 w = true ↔ w = 1 := by
  match w with
  | 0 => decide
  | 1 => decide
  | w + 2 =>
    have hfar : single.model.sees 0 (w + 2) = false := rfl
    simp [hfar]

theorem sees_doubled {w : Nat} : doubled.model.sees 2 w = true ↔ w = 0 ∨ w = 1 := by
  match w with
  | 0 => decide
  | 1 => decide
  | 2 => decide
  | w + 3 =>
    have hfar : doubled.model.sees 2 (w + 3) = false := rfl
    simp [hfar]

/-- What sees is related to what sees, and what is seen to both of its copies. -/
theorem boundedBisimulation_doubled :
    BoundedBisimulation single.model doubled.model ["p"] 1 fun k v v' =>
      (k = 1 ∧ v = 0 ∧ v' = 2) ∨ (k = 0 ∧ v = 1 ∧ (v' = 0 ∨ v' = 1)) where
  inRange := by
    rintro k - v v' (⟨-, rfl, rfl⟩ | ⟨-, rfl, rfl | rfl⟩) <;> decide
  atoms := by
    rintro k - v v' (⟨-, rfl, rfl⟩ | ⟨-, rfl, rfl | rfl⟩) s name hname <;>
      obtain rfl := List.mem_singleton.mp hname <;> cases s <;> rfl
  forth := by
    rintro k hk v v' (⟨-, rfl, rfl⟩ | ⟨hk', -⟩) w hw
    · exact ⟨0, rfl, .inr ⟨Nat.lt_one_iff.mp hk, sees_single.mp hw, .inl rfl⟩⟩
    · omega
  back := by
    rintro k hk v v' (⟨-, rfl, rfl⟩ | ⟨hk', -⟩) w' hw'
    · exact ⟨1, rfl, .inr ⟨Nat.lt_one_iff.mp hk, rfl, sees_doubled.mp hw'⟩⟩
    · omega

/-- From the world that is seen no other one is found. -/
theorem eq_of_near_single {n w : Nat} (h : single.model.Near n 1 w) : w = 1 := by
  have hsees : ∀ u, single.model.sees 1 u = false
    | 0 => rfl
    | 1 => rfl
    | u + 2 => rfl
  match n, h with
  | n + 1, .inl h => exact h.symm
  | n + 1, .inr ⟨u, hu, _⟩ => simp [hsees u] at hu

/-- Edits about the first of the two worlds, which is not in sight of the second one. -/
def elsewhere : List Edit := [.relation 0 0 1, .value .pro "p" 0 1, .values .con "q" [1, 1]]

/-- A copy of a world that is seen makes no difference, and neither do edits about a world that is
not seen. -/
theorem evaluate_bisimilar_doubled :
    ∃ m m', single.build = .ok m ∧ doubled.build = .ok m' ∧
      (∀ limit, m.evaluate limit (.unary (.modal .diamond) (.var "p")) 0
        = m'.evaluate limit (.unary (.modal .diamond) (.var "p")) 2) ∧
      m.evaluate 2 (.unary (.modal .diamond) (.var "p")) 0 = .ok ⟨true, false⟩ ∧
      (m.edits elsewhere).1 = [.ok (), .ok (), .ok ()] ∧
      ∀ limit, m.evaluate limit (.unary (.modal .diamond) (.var "p")) 1
        = (m.edits elsewhere).2.evaluate limit (.unary (.modal .diamond) (.var "p")) 1 := by
  have hm : single.build = .ok single.model := Draft.build_eq_ok_iff.mpr ⟨rfl, rfl⟩
  have hm' : doubled.build = .ok doubled.model := Draft.build_eq_ok_iff.mpr ⟨rfl, rfl⟩
  have hlocal (limit : Nat) :=
    evaluate_bisimilar (.built hm) (.unary (.modal .diamond) (.var "p")) limit
  refine ⟨_, _, hm, hm', fun limit => ?_, rfl, rfl, fun limit => ?_⟩
  · obtain ⟨hbisimilar, -, -⟩ := hlocal limit
    exact hbisimilar _ (.built hm') 1 _ (Nat.le_refl 1) boundedBisimulation_doubled 0 2
      (.inl ⟨rfl, rfl, rfl⟩)
  · obtain ⟨-, -, hedits⟩ := hlocal limit
    refine hedits elsewhere 1 ?_
    simp only [elsewhere, List.forall_mem_cons, Spares]
    refine ⟨fun h => absurd (eq_of_near_single h) (by decide),
      fun h => absurd (eq_of_near_single h.2) (by decide), ?_, by simp⟩
    intro h
    simp [Formula.names] at h

end TrustLogic.Kripke.Model
