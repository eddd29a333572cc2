import TrustLogic.Proofs.Kripke.Editing
import TrustLogic.Proofs.Kripke.Meaning

/-!
# A formula in the place of a variable

What a formula comes to at all worlds can be written into the tables of a model as the entries of a
variable. From then on the variable stands for the formula: with the formula in its place or with the
variable itself, evaluating gives the same, at every world and under every modality.

* `TrustLogic.Kripke.Model.entries` – the evidence at all worlds as entries of a side.
* `TrustLogic.Kripke.Model.recorded` – the model with these entries for a variable, whatever it had
  for it before.
* `TrustLogic.Kripke.Model.meaning_substitute` – the evidence;
  `TrustLogic.Kripke.Model.findSome?_names_substitute` – the first variable that is missing.

The formula that is put in may have the variable itself. There is nothing circular in this, as it is
evaluated in the model as it was before, and evaluating with the formula in place goes on asking that
model.
-/

namespace TrustLogic.Kripke

/-- The evidence of a side. -/
def Evidence.on (a : Evidence) : Side → Bool
  | .pro => a.pro
  | .con => a.con

namespace Model

variable {m : Model} {f : Nat → Evidence} {p name : String} {s : Side} {φ χ : Formula}

/-! ### Recording evidence -/

/-- The evidence of a side at all worlds, in the form in which a variable has its entries. -/
def entries (m : Model) (f : Nat → Evidence) (s : Side) : List Int :=
  (List.range m.worlds).map fun w => ((f w).on s).toInt

/-- **The model with evidence recorded** as the entries of a variable, on the one side first and
then on the other. -/
def recorded (m : Model) (p : String) (f : Nat → Evidence) : Model :=
  (m.edited (.values .pro p (m.entries f .pro))).edited (.values .con p (m.entries f .con))

theorem isBit_toInt (b : Bool) : isBit b.toInt = true := by
  cases b <;> rfl

theorem bitOf_toInt (b : Bool) : bitOf b.toInt = b := by
  cases b <;> rfl

/-- There is nothing wrong with entries that record evidence. -/
theorem valuesFault?_entries (m : Model) (f : Nat → Evidence) (s : Side) (p : String) :
    valuesFault? m.worlds s p (m.entries f s) = none := by
  refine valuesFault?_eq_none_iff.mpr ⟨by simp [entries], fun i hi => ?_⟩
  obtain ⟨w, -, rfl⟩ := List.mem_map.mp hi
  exact isBit_toInt _

theorem entries_congr {g : Nat → Evidence} (h : ∀ w < m.worlds, f w = g w) (s : Side) :
    m.entries f s = m.entries g s :=
  List.map_congr_left fun w hw => by rw [h w (List.mem_range.mp hw)]

theorem worlds_recorded (m : Model) (p : String) (f : Nat → Evidence) :
    (m.recorded p f).worlds = m.worlds := by
  rw [recorded, worlds_edited, worlds_edited]

theorem inSight_recorded (w : Nat) : (m.recorded p f).inSight w = m.inSight w := rfl

/-- Either table has the evidence of its side. -/
theorem table_recorded (s : Side) :
    (m.recorded p f).table s = (m.table s).insert p ((m.entries f s).map bitOf) := by
  cases s <;> rfl

theorem value?_recorded_of_ne (h : name ≠ p) (w : Nat) :
    (m.recorded p f).value? s name w = m.value? s name w := by
  rw [value?, table_recorded, Std.ExtTreeMap.getElem?_insert, value?]
  simp [Ne.symm h]

/-- What is recorded at a world can be looked up there. -/
theorem value?_recorded_self {w : Nat} (hw : w < m.worlds) :
    (m.recorded p f).value? s p w = some ((f w).on s) := by
  rw [value?, table_recorded, Std.ExtTreeMap.getElem?_insert]
  simp [entries, hw, bitOf_toInt]

/-! ### The evidence -/

/-- **A recorded variable has the evidence that the formula had**, and so have all formulas with
this formula in its place. -/
theorem meaning_substitute {w : Nat} (hw : w < m.worlds) :
    m.meaning (φ.substitute p χ) w = (m.recorded p (m.meaning χ)).meaning φ w := by
  induction φ generalizing w with
  | var name =>
    rw [Formula.substitute]
    by_cases hname : name = p
    · rw [if_pos hname, hname, meaning, value?_recorded_self hw, value?_recorded_self hw]
      rfl
    · rw [if_neg hname, meaning, meaning, value?_recorded_of_ne hname, value?_recorded_of_ne hname]
  | unary op φ ih =>
    cases op with
    | negation => rw [Formula.substitute, meaning, meaning, ih hw]
    | modal op =>
      -- whatever is in sight is a world of the model
      have hmap : (m.inSight w).map (m.meaning (φ.substitute p χ))
          = (m.inSight w).map ((m.recorded p (m.meaning χ)).meaning φ) :=
        List.map_congr_left fun v hv => ih (List.mem_range.mp (List.mem_filter.mp hv).1)
      refine meaning_modal_congr (fun a => ?_) op
      rw [inSight_recorded, hmap]
  | binary op φ ψ ihφ ihψ => rw [Formula.substitute, meaning, meaning, ihφ hw, ihψ hw]

/-! ### The faults -/

theorem variableFault?_recorded_self : (m.recorded p f).variableFault? p = none := by
  have hmem (s : Side) : p ∈ (m.recorded p f).table s := by
    rw [table_recorded]
    exact Std.ExtTreeMap.mem_insert_self
  have hpro : p ∈ (m.recorded p f).pro := hmem .pro
  have hcon : p ∈ (m.recorded p f).con := hmem .con
  simp [variableFault?, hpro, hcon]

theorem variableFault?_recorded_of_ne (h : name ≠ p) :
    (m.recorded p f).variableFault? name = m.variableFault? name := by
  refine variableFault?_congr fun s => ?_
  rw [table_recorded, Std.ExtTreeMap.mem_insert]
  simp [Ne.symm h]

/-- **The same variable is missing first**, if none is missing in the formula that is put in. -/
theorem findSome?_names_substitute (hχ : χ.names.findSome? m.variableFault? = none) :
    (φ.substitute p χ).names.findSome? m.variableFault?
      = φ.names.findSome? (m.recorded p f).variableFault? := by
  induction φ with
  | var name =>
    rw [Formula.substitute, Formula.names, List.findSome?_singleton]
    by_cases hname : name = p
    · rw [if_pos hname, hχ, hname, variableFault?_recorded_self]
    · rw [if_neg hname, Formula.names, List.findSome?_singleton, variableFault?_recorded_of_ne hname]
  | unary op φ ih => exact ih
  | binary op φ ψ ihφ ihψ =>
    rw [Formula.substitute, Formula.names, Formula.names, List.findSome?_append,
      List.findSome?_append, ihφ, ihψ]

/-! ### Evaluating -/

/-- **Evaluating with a formula in the place of a variable is evaluating after an edit.** A formula
evaluates without a fault at every world of a model that comes about. Then the evidence for it can
be written into the model as the entries of a variable, first those for and then those against:
neither edit is refused. From then on evaluating a formula comes to the same at every world, be it
evidence or a fault, as evaluating it in the model as it was with the other formula in the place of
the variable, provided that this is not too deep. -/
theorem evaluate_substitute (hm : m.Reachable) (p : String) (φ : Formula) {room limit : Nat}
    (hχ : ∀ w < m.worlds, m.evaluate room χ w = .ok (f w))
    (hlimit : (φ.substitute p χ).depth ≤ limit) :
    ∃ m₁ m₂ : Model,
      m.edit (.values .pro p (m.entries f .pro)) = .ok m₁ ∧
      m₁.edit (.values .con p (m.entries f .con)) = .ok m₂ ∧
      ∀ w, m.evaluate limit (φ.substitute p χ) w = m₂.evaluate limit φ w := by
  have hshape := hm.wellShaped
  have hχ' (w : Nat) (hw : w < m.worlds) : m.firstFault? room χ = none ∧ m.meaning χ w = f w := by
    rw [← unlessFault_eq_ok_iff, ← hshape.evaluate_of_lt room χ hw, hχ w hw]
  have hentries (s : Side) : m.entries f s = m.entries (m.meaning χ) s :=
    entries_congr (fun w hw => (hχ' w hw).2.symm) s
  have hpro : m.editFault? (.values .pro p (m.entries f .pro)) = none :=
    valuesFault?_entries m f .pro p
  have hcon : (m.edited (.values .pro p (m.entries f .pro))).editFault?
      (.values .con p (m.entries f .con)) = none :=
    valuesFault?_entries m f .con p
  refine ⟨_, _, edit_eq_ok_iff.mpr ⟨hpro, rfl⟩, edit_eq_ok_iff.mpr ⟨hcon, rfl⟩, fun w => ?_⟩
  have hrecorded : (m.recorded p f).WellShaped := (hshape.edited hpro).edited hcon
  change m.evaluate limit (φ.substitute p χ) w = (m.recorded p f).evaluate limit φ w
  rcases Nat.lt_or_ge w m.worlds with hw | hw
  · have hmeaning : m.recorded p f = m.recorded p (m.meaning χ) := by
      rw [recorded, hentries, hentries, recorded]
    have hnames : χ.names.findSome? m.variableFault? = none :=
      (faultFrom?_eq_none_iff.mp (hχ' w hw).1).2
    have hdepth : φ.depth ≤ limit := Nat.le_trans (Formula.depth_le_depth_substitute p χ) hlimit
    rw [hshape.evaluate_of_lt _ _ hw, hrecorded.evaluate_of_lt _ _ (by rwa [worlds_recorded]),
      firstFault?_of_depth_le hlimit, firstFault?_of_depth_le hdepth,
      findSome?_names_substitute hnames, meaning_substitute hw, hmeaning]
  · rw [evaluate_of_le hw, evaluate_of_le (by rwa [worlds_recorded]), worlds_recorded]

/-- Two worlds that see each other and disagree about a variable. -/
def facing : Draft :=
  .ofCalls 2 [.relation [[0, 1], [1, 0]], .values .pro "p" [1, 0], .values .con "p" [0, 1]]

/-- The formula that is put in says of the variable itself that it is possible. At either world it
comes to what the variable came to at the other one, and this takes the place of the variable. At
the two worlds this makes a difference. -/
theorem evaluate_substitute_facing :
    ∃ m m₁ m₂, facing.build = .ok m ∧
      m.edit (.values .pro "p" [0, 1]) = .ok m₁ ∧ m₁.edit (.values .con "p" [1, 0]) = .ok m₂ ∧
      (∀ w, m.evaluate 3 (.unary (.modal .box) (.unary (.modal .diamond) (.var "p"))) w
        = m₂.evaluate 3 (.unary (.modal .box) (.var "p")) w) ∧
      m.evaluate 3 (.unary (.modal .box) (.unary (.modal .diamond) (.var "p"))) 0
        = .ok ⟨true, false⟩ ∧
      m.evaluate 3 (.unary (.modal .box) (.unary (.modal .diamond) (.var "p"))) 1
        = .ok ⟨false, true⟩ := by
  have hm : facing.build = .ok facing.model := Draft.build_eq_ok_iff.mpr ⟨rfl, rfl⟩
  have hχ : ∀ w < facing.model.worlds,
      facing.model.evaluate 2 (.unary (.modal .diamond) (.var "p")) w
        = .ok (if w = 0 then ⟨false, true⟩ else ⟨true, false⟩)
    | 0, _ => rfl
    | 1, _ => rfl
    | w + 2, hw => absurd hw (Nat.not_lt.mpr (Nat.le_add_left 2 w))
  obtain ⟨m₁, m₂, hpro, hcon, heval⟩ :=
    evaluate_substitute (.built hm) "p" (.unary (.modal .box) (.var "p")) hχ (Nat.le_refl 3)
  exact ⟨facing.model, m₁, m₂, hm, hpro, hcon, heval, rfl, rfl⟩

end Model

end TrustLogic.Kripke
