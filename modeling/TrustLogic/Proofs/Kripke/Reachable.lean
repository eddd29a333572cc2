import TrustLogic.Kripke.Model

/-!
# Reachable models

A model comes into being from a draft without faults, and it changes by edits without faults. What
the drafts and the edits are checked for makes every model that comes about in this way
*well-shaped*: its relation has one row for each world, and every row, of the relation and of the
tables, has one entry for each world. Questions about a model look entries up by position and take
whatever is missing for absent, so the shape is what their answers rest on.

* `TrustLogic.Kripke.Model.Reachable` – the models that come about.
* `TrustLogic.Kripke.Model.WellShaped` – the shape; `TrustLogic.Kripke.Model.Reachable.wellShaped`
  says that it is never lost.
* `TrustLogic.Kripke.Model.WellShaped.successors_eq` and
  `TrustLogic.Kripke.Model.WellShaped.value?_eq_none_iff` – what the questions answer then.
-/

namespace TrustLogic.Kripke

/-- **The models that come about**: they are built from drafts and then edited. An edit that is
refused changes nothing, so it does not count. -/
inductive Model.Reachable : Model → Prop
  /-- A model that is built from a draft. -/
  | built {d : Draft} {m : Model} (h : d.build = .ok m) : Reachable m
  /-- A model after an edit. -/
  | edited {m n : Model} {e : Edit} (hm : Reachable m) (h : m.edit e = .ok n) : Reachable n

/-- **The shape of a model**: the worlds are counted by the relation, by its rows, and by the rows
of either table. -/
structure Model.WellShaped (m : Model) : Prop where
  length_relation : m.relation.length = m.worlds
  length_row : ∀ (v : Nat) (row : List Bool), m.relation[v]? = some row → row.length = m.worlds
  length_values : ∀ (s : Side) (name : String) (values : List Bool),
    (m.table s)[name]? = some values → values.length = m.worlds

/-! ### Drafts -/

namespace Draft

variable {d : Draft}

theorem length_diagonal (worlds : Nat) (reflexive : Bool) :
    (diagonal worlds reflexive).length = worlds ∧
      ∀ row ∈ diagonal worlds reflexive, row.length = worlds := by
  simp [diagonal]

theorem length_relation_model (h : d.fault? = none) :
    d.model.relation.length = d.worlds ∧ ∀ row ∈ d.model.relation, row.length = d.worlds := by
  simp only [model]
  rcases hrel : d.relation with _ | rows
  · exact length_diagonal d.worlds d.reflexive
  · obtain ⟨hrows, hrow⟩ := relationFault?_eq_none_iff.mp ((fault?_eq_none_iff.mp h).1 rows hrel)
    refine ⟨by rw [List.length_map, hrows], fun row hmem => ?_⟩
    obtain ⟨raw, hraw, rfl⟩ := List.mem_map.mp hmem
    rw [List.length_map, (hrow raw hraw).1]

/-- The rows of a table are as long as those that were checked. -/
theorem length_bits {worlds : Nat} {s : Side} {t : Option (Table (List Int))}
    (ht : ∀ t', t = some t' → t'.fault? (valuesFault? worlds s) = none) {name : String}
    {values : List Bool} (h : (bits t)[name]? = some values) : values.length = worlds := by
  rw [bits, Std.ExtTreeMap.getElem?_map] at h
  obtain ⟨raw, hraw, rfl⟩ := Option.map_eq_some_iff.mp h
  rcases t with _ | t
  · -- a table that is not given has no rows
    simp at hraw
  · have hfault := Table.fault?_eq_none_iff.mp (ht t rfl) name raw hraw
    rw [List.length_map, (valuesFault?_eq_none_iff.mp hfault).1]

theorem wellShaped_model (h : d.fault? = none) : d.model.WellShaped where
  length_relation := (length_relation_model h).1
  length_row := fun _ _ hrow => (length_relation_model h).2 _ (List.mem_of_getElem? hrow)
  length_values := by
    obtain ⟨-, hpro, hcon⟩ := fault?_eq_none_iff.mp h
    rintro (_ | _) name values hvalues
    · exact length_bits hpro hvalues
    · exact length_bits hcon hvalues

end Draft

/-! ### Edits -/

namespace Model

variable {m n : Model}

/-- A table may be replaced by one whose rows have the right length. -/
theorem WellShaped.withTable (hm : m.WellShaped) {s : Side} {t : Table (List Bool)}
    (ht : ∀ (name : String) (values : List Bool), t[name]? = some values →
      values.length = m.worlds) :
    (m.withTable s t).WellShaped where
  length_relation := by
    rw [relation_withTable, worlds_withTable]
    exact hm.length_relation
  length_row := by
    rw [relation_withTable, worlds_withTable]
    exact hm.length_row
  length_values := by
    intro s' name values hvalues
    rw [table_withTable] at hvalues
    rw [worlds_withTable]
    split at hvalues
    · exact ht name values hvalues
    · exact hm.length_values s' name values hvalues

/-- **No edit changes the shape.** -/
theorem WellShaped.edited (hm : m.WellShaped) {e : Edit} (he : m.editFault? e = none) :
    (m.edited e).WellShaped := by
  cases e with
  | relation source target value =>
    refine ⟨by simp [Model.edited, hm.length_relation], ?_, hm.length_values⟩
    intro v row hrow
    rw [Model.edited, List.getElem?_modify] at hrow
    obtain ⟨old, hold, rfl⟩ := Option.map_eq_some_iff.mp hrow
    -- the row of the source is written in place, and the others stay
    split
    · rw [List.length_set]
      exact hm.length_row v old hold
    · exact hm.length_row v old hold
  | values s name values =>
    refine hm.withTable fun name' values' h => ?_
    rw [Std.ExtTreeMap.getElem?_insert] at h
    split at h
    · obtain rfl := Option.some.inj h
      rw [List.length_map]
      exact (valuesFault?_eq_none_iff.mp he).1
    · exact hm.length_values s name' values' h
  | value s name w value =>
    refine hm.withTable fun name' values' h => ?_
    rw [Std.ExtTreeMap.getElem?_modify] at h
    split at h
    · obtain ⟨old, hold, rfl⟩ := Option.map_eq_some_iff.mp h
      rw [List.length_set]
      exact hm.length_values s _ old hold
    · exact hm.length_values s name' values' h

/-- **Every model that comes about is well-shaped.** -/
theorem Reachable.wellShaped (hm : m.Reachable) : m.WellShaped := by
  induction hm with
  | built h =>
    obtain ⟨hfault, rfl⟩ := Draft.build_eq_ok_iff.mp h
    exact Draft.wellShaped_model hfault
  | edited _ h ih =>
    obtain ⟨hfault, rfl⟩ := edit_eq_ok_iff.mp h
    exact ih.edited hfault

/-! ### Questions -/

/-- The positions of the entries that are true, as the worlds where the row has one. -/
theorem filterMap_zipIdx (row : List Bool) (k : Nat) :
    ((row.zipIdx k).filterMap fun entry => if entry.1 then some entry.2 else none)
      = (List.range' k row.length).filter fun w => (row[w - k]?).getD false := by
  induction row generalizing k with
  | nil => rfl
  | cons b row ih =>
    -- behind the first entry, positions in the row and in its tail differ by one
    have htail : ((List.range' (k + 1) row.length).filter fun w => ((b :: row)[w - k]?).getD false)
        = (List.range' (k + 1) row.length).filter fun w => (row[w - (k + 1)]?).getD false := by
      refine List.filter_congr fun w hw => ?_
      have hpos : w - k = (w - (k + 1)) + 1 := by
        have := (List.mem_range'_1.mp hw).1
        omega
      rw [hpos, List.getElem?_cons_succ]
    rw [List.zipIdx_cons, List.length_cons, List.range'_succ, List.filterMap_cons, List.filter_cons,
      htail, ih (k + 1)]
    cases b <;> simp

/-- Only worlds are in sight. -/
theorem WellShaped.lt_of_sees (hm : m.WellShaped) {v w : Nat} (h : m.sees v w = true) :
    w < m.worlds := by
  obtain ⟨row, hrow, hw⟩ := sees_iff.mp h
  rw [← hm.length_row v row hrow]
  exact (List.getElem?_eq_some_iff.mp hw).1

/-- The worlds in sight of a world, out of all of them. -/
theorem WellShaped.successors_eq (hm : m.WellShaped) (v : Nat) :
    m.successors v = (List.range m.worlds).filter (m.sees v) := by
  rw [successors]
  rcases hrow : m.relation[v]? with _ | row
  · have hnone : (List.range m.worlds).filter (m.sees v) = [] := by
      simp [sees, hrow]
    rw [hnone]
    rfl
  · rw [Option.getD_some, filterMap_zipIdx, hm.length_row v row hrow, List.range_eq_range']
    refine List.filter_congr fun w _ => ?_
    rw [sees, hrow, Option.bind_some, Nat.sub_zero]

/-- A table says something about a variable at a world exactly if it says something about the
variable. -/
theorem WellShaped.value?_eq_none_iff (hm : m.WellShaped) (s : Side) (name : String) {w : Nat}
    (hw : w < m.worlds) : m.value? s name w = none ↔ name ∉ m.table s := by
  rw [value?, Std.ExtTreeMap.mem_iff_isSome_getElem?]
  rcases hvalues : (m.table s)[name]? with _ | values
  · simp
  · rw [← hm.length_values s name values hvalues] at hw
    simp [hw]

/-! ### Questions after an edit -/

theorem sees_withTable (m : Model) (s : Side) (t : Table (List Bool)) (v w : Nat) :
    (m.withTable s t).sees v w = m.sees v w := by
  cases s <;> rfl

theorem value?_withTable (m : Model) (s s' : Side) (t : Table (List Bool)) (name : String)
    (w : Nat) :
    (m.withTable s t).value? s' name w =
      if s = s' then t[name]?.bind (·[w]?) else m.value? s' name w := by
  rw [value?, table_withTable]
  split <;> rfl

/-- An entry of the relation is no one's business but that of the world it is about. -/
theorem sees_edited_relation_of_ne {v u : Nat} (h : v ≠ u) (target w : Nat) (i : Int) :
    (m.edited (.relation v target i)).sees u w = m.sees u w := by
  simp [sees, Model.edited, h]

/-- **A row takes the place of one of the same name on the same side**, and of no other. -/
theorem value?_edited_values (m : Model) (s s' : Side) (name name' : String) (values : List Int)
    (w : Nat) :
    (m.edited (.values s name values)).value? s' name' w =
      if s = s' ∧ name = name' then values[w]?.map bitOf else m.value? s' name' w := by
  rw [Model.edited, value?_withTable, Std.ExtTreeMap.getElem?_insert]
  by_cases hs : s = s'
  · subst hs
    by_cases hname : name = name'
    · simp [hname]
    · simp [hname, value?]
  · simp [hs]

/-- An entry of a variable takes the place of no other entry. -/
theorem value?_edited_value_of_ne {s s' : Side} {name name' : String} {v w : Nat}
    (h : ¬ (s = s' ∧ name = name' ∧ v = w)) (i : Int) :
    (m.edited (.value s name v i)).value? s' name' w = m.value? s' name' w := by
  rw [Model.edited, value?_withTable, Std.ExtTreeMap.getElem?_modify]
  by_cases hs : s = s'
  · subst hs
    by_cases hname : name = name'
    · subst hname
      have hv : v ≠ w := fun hv => h ⟨rfl, rfl, hv⟩
      cases hrow : (m.table s)[name]? <;> simp [value?, hrow, List.getElem?_set_ne hv]
    · simp [hname, value?]
  · simp [hs]

end Model

end TrustLogic.Kripke
