import Mathlib.Data.List.Basic
import TrustLogic.Proofs.Kripke.Editing
import TrustLogic.Proofs.Kripke.Rows

/-!
# Editing is rebuilding

A model can be changed in two ways: it is edited, or the draft it was built from is revised and
built again. The first way writes truth values into a model and never looks at the draft; the second
one writes integers into the draft, and every entry of it is checked once more. This file says that
the two ways lead to the same models, however many edits there are.

Two things have to be seen to. A draft may leave its relation out, and then there is no entry to
write to, so it is *written out* first (`TrustLogic.Kripke.Draft.writtenOut`). And an edit that is
refused has to be left out of the revisions, so it must be known without the model which ones are
refused.

* `TrustLogic.Kripke.Draft.revised` – a draft with one entry or one row replaced.
* `TrustLogic.Kripke.Draft.Refuses` – which edits are refused and with which faults, by the number
  of worlds and the names in the tables alone.
* `TrustLogic.Kripke.Draft.Revises` – revisions one after another, without those that are refused;
  on the other side `TrustLogic.Kripke.Model.edits`.
* `TrustLogic.Kripke.Draft.editFault?_model_eq_some_iff` and
  `TrustLogic.Kripke.Draft.model_revised` – one edit; `TrustLogic.Kripke.Draft.exists_revises` –
  all of them.
-/

namespace TrustLogic.Kripke

namespace Draft

variable {d : Draft}

/-! ### The tables of a draft -/

/-- The table of a side, which is empty if it is not given. -/
def table (d : Draft) : Side → Table (List Int)
  | .pro => d.pro.getD ∅
  | .con => d.con.getD ∅

/-- The draft with another table of a side. -/
def withTable (d : Draft) (s : Side) (t : Table (List Int)) : Draft :=
  match s with
  | .pro => { d with pro := some t }
  | .con => { d with con := some t }

theorem table_model (d : Draft) (s : Side) :
    d.model.table s = (d.table s).map fun _ values => values.map bitOf := by
  cases s <;> rfl

theorem model_withTable (d : Draft) (s : Side) (t : Table (List Int)) :
    (d.withTable s t).model = d.model.withTable s (t.map fun _ values => values.map bitOf) := by
  cases s <;> rfl

/-- A table that is not given has no faults, as it has no entries. -/
theorem bind_tableFault? (t : Option (Table (List Int)))
    (fault : String → List Int → Option ModelError) :
    (t.bind fun t => t.fault? fault) = (t.getD ∅).fault? fault := by
  rcases t with _ | t
  · exact (Table.fault?_eq_none_iff.mpr (by simp)).symm
  · rfl

/-- The first fault of a draft depends on its tables by what is in them, whether they are given or
not. -/
theorem fault?_eq_tables (d : Draft) :
    d.fault? = (d.relation.bind (relationFault? d.worlds)).or
      (((d.table .pro).fault? (valuesFault? d.worlds .pro)).or
        ((d.table .con).fault? (valuesFault? d.worlds .con))) := by
  rw [fault?, bind_tableFault?, bind_tableFault?]
  rfl

/-- **A draft without faults**, row by row. -/
theorem fault?_eq_none_iff_rows :
    d.fault? = none ↔
      (∀ rows, d.relation = some rows → relationFault? d.worlds rows = none) ∧
      ∀ (s : Side) (name : String) (values : List Int), (d.table s)[name]? = some values →
        valuesFault? d.worlds s name values = none := by
  rw [fault?_eq_tables, Option.or_eq_none_iff, Option.or_eq_none_iff, Option.bind_eq_none_iff,
    Table.fault?_eq_none_iff, Table.fault?_eq_none_iff]
  constructor
  · rintro ⟨hrel, hpro, hcon⟩
    refine ⟨hrel, ?_⟩
    rintro (_ | _)
    · exact hpro
    · exact hcon
  · rintro ⟨hrel, htable⟩
    exact ⟨hrel, htable .pro, htable .con⟩

/-! ### Writing the relation out -/

/-- The relation as a matrix, whether it is given or not. -/
def matrix (d : Draft) : List (List Int) :=
  match d.relation with
  | some rows => rows
  | none =>
    (List.range d.worlds).map fun v => (List.range d.worlds).map fun w =>
      if v = w ∧ d.reflexive = true then 1 else 0

/-- **The draft with its relation written out.** -/
def writtenOut (d : Draft) : Draft := { d with relation := some d.matrix }

theorem model_writtenOut (d : Draft) : d.writtenOut.model = d.model := by
  rcases hrel : d.relation with _ | rows
  · simp only [model, writtenOut, matrix, hrel, diagonal, List.map_map]
    congr 1
    refine List.map_congr_left fun v _ => ?_
    rw [Function.comp_apply, List.map_map]
    refine List.map_congr_left fun w _ => ?_
    by_cases hvw : v = w <;> cases d.reflexive <;> simp [bitOf, hvw]
  · simp only [model, writtenOut, matrix, hrel]

theorem fault?_writtenOut (hd : d.fault? = none) : d.writtenOut.fault? = none := by
  obtain ⟨hrel, htable⟩ := fault?_eq_none_iff_rows.mp hd
  refine fault?_eq_none_iff_rows.mpr ⟨?_, htable⟩
  rintro rows hrows
  obtain rfl := Option.some.inj hrows
  rcases hgiven : d.relation with _ | rows
  · rw [matrix, hgiven, relationFault?_eq_none_iff]
    refine ⟨by simp [writtenOut], fun row hrow => ?_⟩
    obtain ⟨v, -, rfl⟩ := List.mem_map.mp hrow
    refine ⟨by simp [writtenOut], fun i hi => ?_⟩
    obtain ⟨w, -, rfl⟩ := List.mem_map.mp hi
    split <;> rfl
  · rw [matrix, hgiven]
    exact hrel rows hgiven

/-! ### Revisions -/

/-- **The draft with an edit carried out on its entries**: one entry of the relation is replaced, or
one row of a table is put in or replaced, or one entry of such a row is replaced. -/
def revised (d : Draft) : Edit → Draft
  | .relation source target value =>
    { d with relation := d.relation.map fun rows => rows.modify source (·.set target value) }
  | .values s name values => d.withTable s ((d.table s).insert name values)
  | .value s name w value => d.withTable s ((d.table s).modify name (·.set w value))

/-- **The edits that are refused**, each with its fault. -/
inductive Refuses (d : Draft) : Edit → ModelError → Prop
  /-- There is no such world to see from. -/
  | source {v w : Nat} {i : Int} (hv : d.worlds ≤ v) :
    Refuses d (.relation v w i) (.noWorld v d.worlds)
  /-- There is no such world to be seen. -/
  | target {v w : Nat} {i : Int} (hv : v < d.worlds) (hw : d.worlds ≤ w) :
    Refuses d (.relation v w i) (.noWorld w d.worlds)
  /-- Both worlds exist, and the entry is neither 0 nor 1. -/
  | relationEntry {v w : Nat} {i : Int} (hv : v < d.worlds) (hw : w < d.worlds)
    (hi : i ≠ 0 ∧ i ≠ 1) : Refuses d (.relation v w i) (.relationEntry v w i)
  /-- A row does not have one entry for each world. -/
  | valueCount {s : Side} {name : String} {values : List Int} (h : values.length ≠ d.worlds) :
    Refuses d (.values s name values) (.valueCount s name d.worlds values.length)
  /-- A row of the right length has an entry that is neither 0 nor 1, and no such entry before. -/
  | firstEntry {s : Side} {name : String} {values : List Int} {w : Nat} {i : Int}
    (h : values.length = d.worlds) (hw : values[w]? = some i) (hi : i ≠ 0 ∧ i ≠ 1)
    (hfirst : ∀ v j, v < w → values[v]? = some j → j = 0 ∨ j = 1) :
    Refuses d (.values s name values) (.valueEntry s name w i)
  /-- There is no such world. -/
  | world {s : Side} {name : String} {w : Nat} {i : Int} (hw : d.worlds ≤ w) :
    Refuses d (.value s name w i) (.noWorld w d.worlds)
  /-- The world exists, and the entry is neither 0 nor 1. -/
  | entry {s : Side} {name : String} {w : Nat} {i : Int} (hw : w < d.worlds)
    (hi : i ≠ 0 ∧ i ≠ 1) : Refuses d (.value s name w i) (.valueEntry s name w i)
  /-- World and entry are in order, and the table has no row of that name. -/
  | noVariable {s : Side} {name : String} {w : Nat} {i : Int} (hw : w < d.worlds)
    (hi : i = 0 ∨ i = 1) (hname : name ∉ d.table s) :
    Refuses d (.value s name w i) (.noVariable s name)

/-- **Revisions one after another.** An edit that is refused is answered with its fault and changes
nothing; any other one is carried out on the entries of the draft. -/
inductive Revises : Draft → List Edit → List (Except ModelError Unit) → Draft → Prop
  /-- No edits are left. -/
  | done (d : Draft) : Revises d [] [] d
  /-- The next edit is refused. -/
  | refused {d d' : Draft} {e : Edit} {es : List Edit} {fault : ModelError}
    {answers : List (Except ModelError Unit)} (he : d.Refuses e fault)
    (hes : Revises d es answers d') : Revises d (e :: es) (.error fault :: answers) d'
  /-- The next edit is carried out. -/
  | made {d d' : Draft} {e : Edit} {es : List Edit} {answers : List (Except ModelError Unit)}
    (he : ∀ fault, ¬ d.Refuses e fault) (hes : Revises (d.revised e) es answers d') :
    Revises d (e :: es) (.ok () :: answers) d'

/-! ### One edit -/

/-- What is refused on a model is refused on its draft. -/
theorem refuses_of_editFault? {e : Edit} {fault : ModelError}
    (h : d.model.editFault? e = some fault) : d.Refuses e fault := by
  have hworlds : d.model.worlds = d.worlds := rfl
  cases e with
  | relation v w i =>
    simp only [Model.editFault?, Model.worldFault?, hworlds] at h
    by_cases hv : v < d.worlds
    · by_cases hw : w < d.worlds
      · by_cases hi : isBit i = true
        · simp [hv, hw, hi] at h
        · obtain rfl : ModelError.relationEntry v w i = fault := by simpa [hv, hw, hi] using h
          exact .relationEntry hv hw (isBit_eq_false_iff.mp (by simpa using hi))
      · obtain rfl : ModelError.noWorld w d.worlds = fault := by simpa [hv, hw] using h
        exact .target hv (Nat.not_lt.mp hw)
    · obtain rfl : ModelError.noWorld v d.worlds = fault := by simpa [hv] using h
      exact .source (Nat.not_lt.mp hv)
  | values s name values =>
    rcases valuesFault?_eq_some_iff.mp h with hlen | ⟨hlen, hw, hi, hfirst⟩
    · exact .valueCount hlen
    · exact .firstEntry hlen hw hi hfirst
  | value s name w i =>
    simp only [Model.editFault?, Model.worldFault?, hworlds] at h
    by_cases hw : w < d.worlds
    · by_cases hi : isBit i = true
      · by_cases hname : name ∈ d.table s
        · simp [hw, hi, hname, table_model] at h
        · obtain rfl : ModelError.noVariable s name = fault := by
            simpa [hw, hi, hname, table_model] using h
          exact .noVariable hw (isBit_eq_true_iff.mp hi) hname
      · obtain rfl : ModelError.valueEntry s name w i = fault := by simpa [hw, hi] using h
        exact .entry hw (isBit_eq_false_iff.mp (by simpa using hi))
    · obtain rfl : ModelError.noWorld w d.worlds = fault := by simpa [hw] using h
      exact .world (Nat.not_lt.mp hw)

/-- What is refused on a draft is refused on its model. -/
theorem Refuses.editFault? {e : Edit} {fault : ModelError} (h : d.Refuses e fault) :
    d.model.editFault? e = some fault := by
  have hworlds : d.model.worlds = d.worlds := rfl
  cases h with
  | source hv => simp [Model.editFault?, Model.worldFault?, hworlds, Nat.not_lt.mpr hv]
  | target hv hw => simp [Model.editFault?, Model.worldFault?, hworlds, hv, Nat.not_lt.mpr hw]
  | relationEntry hv hw hi =>
    simp [Model.editFault?, Model.worldFault?, hworlds, hv, hw, isBit_eq_false_iff.mpr hi]
  | valueCount h => exact valuesFault?_eq_some_iff.mpr (.count h)
  | firstEntry h hw hi hfirst => exact valuesFault?_eq_some_iff.mpr (.entry h hw hi hfirst)
  | world hw => simp [Model.editFault?, Model.worldFault?, hworlds, Nat.not_lt.mpr hw]
  | entry hw hi =>
    simp [Model.editFault?, Model.worldFault?, hworlds, hw, isBit_eq_false_iff.mpr hi]
  | noVariable hw hi hname =>
    simp [Model.editFault?, Model.worldFault?, hworlds, hw, isBit_eq_true_iff.mpr hi, hname,
      table_model]

/-- **What is refused on a model is what is refused on its draft**, with the same fault. -/
theorem editFault?_model_eq_some_iff {e : Edit} {fault : ModelError} :
    d.model.editFault? e = some fault ↔ d.Refuses e fault :=
  ⟨refuses_of_editFault?, Refuses.editFault?⟩

theorem editFault?_model_eq_none_iff {e : Edit} :
    d.model.editFault? e = none ↔ ∀ fault, ¬ d.Refuses e fault := by
  simp only [Option.eq_none_iff_forall_ne_some, ne_eq, editFault?_model_eq_some_iff]

/-- **The model of a revised draft is the edited model**, where the relation has been written
out. -/
theorem model_revised {rows : List (List Int)} (hrel : d.relation = some rows) (e : Edit) :
    (d.revised e).model = d.model.edited e := by
  cases e with
  | relation v w i =>
    have hrows : (rows.modify v (·.set w i)).map (·.map bitOf)
        = (rows.map (·.map bitOf)).modify v (·.set w (bitOf i)) := by
      refine List.ext_getElem? fun u => ?_
      simp only [List.getElem?_map, List.getElem?_modify]
      split <;> simp [Function.comp_def, List.map_set]
    simp only [revised, model, Model.edited, hrel, Option.map_some, hrows]
  | values s name values =>
    have htable : ((d.table s).insert name values).map (fun _ values => values.map bitOf)
        = (d.model.table s).insert name (values.map bitOf) := by
      refine Std.ExtTreeMap.ext_getElem? fun name' => ?_
      rw [table_model, Std.ExtTreeMap.getElem?_map, Std.ExtTreeMap.getElem?_insert,
        Std.ExtTreeMap.getElem?_insert, Std.ExtTreeMap.getElem?_map]
      split <;> rfl
    rw [revised, model_withTable, htable]
    rfl
  | value s name w i =>
    have htable : ((d.table s).modify name (·.set w i)).map (fun _ values => values.map bitOf)
        = (d.model.table s).modify name (·.set w (bitOf i)) := by
      refine Std.ExtTreeMap.ext_getElem? fun name' => ?_
      rw [table_model, Std.ExtTreeMap.getElem?_map, Std.ExtTreeMap.getElem?_modify,
        Std.ExtTreeMap.getElem?_modify, Std.ExtTreeMap.getElem?_map, Std.ExtTreeMap.getElem?_map]
      split <;> simp [Option.map_map, Function.comp_def, List.map_set]
    rw [revised, model_withTable, htable]
    rfl

theorem worlds_withTable (d : Draft) (s : Side) (t : Table (List Int)) :
    (d.withTable s t).worlds = d.worlds := by
  cases s <;> rfl

theorem relation_withTable (d : Draft) (s : Side) (t : Table (List Int)) :
    (d.withTable s t).relation = d.relation := by
  cases s <;> rfl

theorem table_withTable (d : Draft) (s s' : Side) (t : Table (List Int)) :
    (d.withTable s t).table s' = if s = s' then t else d.table s' := by
  cases s <;> cases s' <;> rfl

/-- A table may be replaced by one whose rows have no faults. -/
theorem fault?_withTable (hd : d.fault? = none) {s : Side} {t : Table (List Int)}
    (ht : ∀ (name : String) (values : List Int), t[name]? = some values →
      valuesFault? d.worlds s name values = none) :
    (d.withTable s t).fault? = none := by
  obtain ⟨hrel, htable⟩ := fault?_eq_none_iff_rows.mp hd
  refine fault?_eq_none_iff_rows.mpr ⟨?_, fun s' name values hvalues => ?_⟩
  · rw [relation_withTable, worlds_withTable]
    exact hrel
  · rw [worlds_withTable]
    rw [table_withTable] at hvalues
    split at hvalues
    · next hs => exact hs ▸ ht name values hvalues
    · exact htable s' name values hvalues

/-- A row of truth values stays one when another truth value is written into it. -/
theorem forall_mem_set_isBit {row : List Int} {w : Nat} {i : Int} (hi : isBit i = true)
    (hrow : ∀ v ∈ row, isBit v = true) : ∀ v ∈ row.set w i, isBit v = true := by
  intro v hv
  rcases List.mem_or_eq_of_mem_set hv with hmem | rfl
  · exact hrow v hmem
  · exact hi

/-- **A revision that is not refused leaves a draft without faults.** -/
theorem fault?_revised (hd : d.fault? = none) {e : Edit} (he : d.model.editFault? e = none) :
    (d.revised e).fault? = none := by
  obtain ⟨hrel, htable⟩ := fault?_eq_none_iff_rows.mp hd
  cases e with
  | relation v w i =>
    have hi : isBit i = true := by
      simp only [Model.editFault?, Option.or_eq_none_iff] at he
      simpa using he.2.2
    refine fault?_eq_none_iff_rows.mpr ⟨fun rows' hrows' => ?_, htable⟩
    obtain ⟨rows, hrows, rfl⟩ := Option.map_eq_some_iff.mp hrows'
    obtain ⟨hlen, hrow⟩ := relationFault?_eq_none_iff.mp (hrel rows hrows)
    refine relationFault?_eq_none_iff.mpr ⟨by rwa [List.length_modify], fun row hmem => ?_⟩
    obtain ⟨u, hu⟩ := List.mem_iff_getElem?.mp hmem
    rw [List.getElem?_modify] at hu
    obtain ⟨old, hold, rfl⟩ := Option.map_eq_some_iff.mp hu
    obtain ⟨hcount, hbits⟩ := hrow old (List.mem_of_getElem? hold)
    -- the row of the source is written in place, and the others stay
    split
    · exact ⟨by rwa [List.length_set], forall_mem_set_isBit hi hbits⟩
    · exact ⟨hcount, hbits⟩
  | values s name values =>
    refine fault?_withTable hd fun name' values' h => ?_
    rw [Std.ExtTreeMap.getElem?_insert] at h
    split at h
    · obtain rfl := Option.some.inj h
      exact valuesFault?_eq_none_iff.mpr (valuesFault?_eq_none_iff.mp he)
    · exact htable s name' values' h
  | value s name w i =>
    have hi : isBit i = true := by
      simp only [Model.editFault?, Option.or_eq_none_iff] at he
      simpa using he.2.1
    refine fault?_withTable hd fun name' values' h => ?_
    rw [Std.ExtTreeMap.getElem?_modify] at h
    split at h
    · obtain ⟨old, hold, rfl⟩ := Option.map_eq_some_iff.mp h
      obtain ⟨hcount, hbits⟩ := valuesFault?_eq_none_iff.mp (htable s name old hold)
      refine valuesFault?_eq_none_iff.mpr ⟨by rwa [List.length_set], ?_⟩
      exact forall_mem_set_isBit hi hbits
    · exact htable s name' values' h

theorem relation_revised {rows : List (List Int)} (hrel : d.relation = some rows) (e : Edit) :
    ∃ rows', (d.revised e).relation = some rows' := by
  cases e with
  | relation v w i => exact ⟨_, by rw [revised, hrel]; rfl⟩
  | values s name values => exact ⟨rows, by rw [revised, relation_withTable, hrel]⟩
  | value s name w i => exact ⟨rows, by rw [revised, relation_withTable, hrel]⟩

end Draft

/-! ### All edits -/

namespace Model

variable {m : Model}

/-- The answers to some edits, one after another, and the model after them. Those that are refused
are skipped. -/
def edits (m : Model) : List Edit → List (Except ModelError Unit) × Model
  | [] => ([], m)
  | e :: es =>
    match m.edit e with
    | .ok n => (.ok () :: (n.edits es).1, (n.edits es).2)
    | .error fault => (.error fault :: (m.edits es).1, (m.edits es).2)

theorem edits_cons_made {e : Edit} (h : m.editFault? e = none) (es : List Edit) :
    m.edits (e :: es) = (.ok () :: ((m.edited e).edits es).1, ((m.edited e).edits es).2) := by
  rw [edits, edit, h]

theorem edits_cons_refused {e : Edit} {fault : ModelError} (h : m.editFault? e = some fault)
    (es : List Edit) : m.edits (e :: es) = (.error fault :: (m.edits es).1, (m.edits es).2) := by
  rw [edits, edit, h]

/-- Editing in place comes to the same, edit by edit. -/
theorem WellShaped.afterAll_eq_edits (hm : m.WellShaped) (es : List Edit) :
    m.afterAll es = some (m.edits es) := by
  induction es generalizing m with
  | nil => rfl
  | cons e es ih =>
    rw [Model.afterAll, hm.outcome_inPlace e]
    rcases hfault : m.editFault? e with _ | fault
    · rw [edits_cons_made hfault]
      simp [InPlace.settled, ih (hm.edited hfault)]
    · rw [edits_cons_refused hfault]
      simp [InPlace.settled, ih hm]

end Model

namespace Draft

variable {d : Draft}

/-- **Editing a model goes along with revising its draft**, edit by edit: the answers are the same,
and so is the model that the draft describes. -/
theorem exists_revises (hd : d.fault? = none) {rows : List (List Int)}
    (hrel : d.relation = some rows) (es : List Edit) :
    ∃ d', d.Revises es (d.model.edits es).1 d' ∧ d'.model = (d.model.edits es).2 ∧
      d'.fault? = none := by
  induction es generalizing d rows with
  | nil => exact ⟨d, .done d, rfl, hd⟩
  | cons e es ih =>
    rcases hfault : d.model.editFault? e with _ | fault
    · -- the next edits start from the draft as it has been revised
      obtain ⟨rows', hrel'⟩ := relation_revised hrel e
      obtain ⟨d', hes, hmodel, hd'⟩ := ih (fault?_revised hd hfault) hrel'
      rw [model_revised hrel] at hes hmodel
      rw [Model.edits_cons_made hfault]
      exact ⟨d', .made (editFault?_model_eq_none_iff.mp hfault) hes, hmodel, hd'⟩
    · obtain ⟨d', hes, hmodel, hd'⟩ := ih hd hrel
      rw [Model.edits_cons_refused hfault]
      exact ⟨d', .refused (refuses_of_editFault? hfault) hes, hmodel, hd'⟩

end Draft

/-- **Editing is rebuilding.** A model that is built from a draft is edited any number of times, and
the same edits are carried out on the entries of the draft, with its relation written out. The edits
that the draft refuses are the ones that the model answers with a fault, and with this very fault;
they are skipped on both sides. In the end the revised draft can be built, and what is built from it
is the edited model. Whatever edit comes next, it is answered with a fault exactly if the draft
refuses it. Editing in place, entry by entry, is no different. -/
theorem edits_eq_rebuild {d : Draft} {m : Model} (hd : d.build = .ok m) (es : List Edit) :
    (∃ d', d.writtenOut.Revises es (m.edits es).1 d' ∧ d'.build = .ok (m.edits es).2 ∧
      ∀ e fault, (m.edits es).2.edit e = .error fault ↔ d'.Refuses e fault) ∧
    m.afterAll es = some (m.edits es) := by
  obtain ⟨hfault, rfl⟩ := Draft.build_eq_ok_iff.mp hd
  refine ⟨?_, (Draft.wellShaped_model hfault).afterAll_eq_edits es⟩
  obtain ⟨d', hes, hmodel, hd'⟩ :=
    Draft.exists_revises (Draft.fault?_writtenOut hfault) rfl es
  rw [Draft.model_writtenOut] at hes hmodel
  refine ⟨d', hes, Draft.build_eq_ok_iff.mpr ⟨hd', hmodel⟩, fun e fault => ?_⟩
  rw [← hmodel, Model.edit_eq_error_iff, Draft.editFault?_model_eq_some_iff]

/-- Edits for two worlds that see themselves. A variable is put into the table of evidence for, and
later on an entry of it is written there and refused in the table of evidence against. -/
def mixedEdits : List Edit :=
  [.relation 0 1 1, .relation 2 3 1, .values .pro "p" [1, 0], .values .con "q" [1, 2],
    .value .con "p" 1 1, .value .pro "p" 1 1]

/-- The draft does not give its relation, and the first edit writes into it all the same. -/
theorem edits_eq_rebuild_twoWorlds :
    Model.twoWorlds.build = .ok Model.twoWorlds.model ∧
    (∃ d', Model.twoWorlds.writtenOut.Revises mixedEdits (Model.twoWorlds.model.edits mixedEdits).1
        d' ∧ d'.build = .ok (Model.twoWorlds.model.edits mixedEdits).2 ∧
      ∀ e fault, (Model.twoWorlds.model.edits mixedEdits).2.edit e = .error fault ↔
        d'.Refuses e fault) ∧
    (Model.twoWorlds.model.edits mixedEdits).1 =
      [.ok (), .error (.noWorld 2 2), .ok (), .error (.valueEntry .con "q" 1 2),
        .error (.noVariable .con "p"), .ok ()] ∧
    (Model.twoWorlds.model.edits mixedEdits).2.relation = [[true, true], [false, true]] ∧
    (Model.twoWorlds.model.edits mixedEdits).2.value? .pro "p" 1 = some true ∧
    (Model.twoWorlds.model.edits mixedEdits).2.value? .con "p" 1 = none := by
  have hbuild : Model.twoWorlds.build = .ok Model.twoWorlds.model := rfl
  obtain ⟨hrebuild, -⟩ := edits_eq_rebuild hbuild mixedEdits
  exact ⟨hbuild, hrebuild, rfl, rfl, rfl, rfl⟩

end TrustLogic.Kripke
