import TrustLogic.Kripke.Evidence
import TrustLogic.Table

/-!
# Kripke models

A finite Kripke model has a number of worlds, a relation that says which worlds are in sight of
which, and two tables: for every variable, the worlds with evidence for it and those with evidence
against it.

Models are given as drafts, whose entries are integers, and checked before they are built. Later
edits are checked in the same way, and an edit that is refused changes nothing.

* `Model` – the models, with the questions that can be asked of one: `Model.sees`,
  `Model.successors` and `Model.value?`.
* `Draft` – what a model is built from, and `Draft.Call`, the steps in which a draft can be put
  together.
* `ModelError` – what can be wrong with a draft or an edit.
* `Draft.fault?` – the first thing that is wrong with a draft; `Draft.build` gives the model unless
  there is one (`Draft.build_eq_ok_iff`).
* `Model.editFault?`, `Model.edit` – the same for the edits of a model (`Model.edit_eq_ok_iff`).
-/

namespace TrustLogic.Kripke

/-! ### Models -/

/-- A Kripke model. The worlds are the numbers below `worlds`. -/
structure Model where
  /-- The number of worlds. -/
  worlds : Nat
  /-- For each world, which worlds are in sight of it. -/
  relation : List (List Bool)
  /-- For each variable, at which worlds there is evidence for it. -/
  pro : Table (List Bool)
  /-- For each variable, at which worlds there is evidence against it. -/
  con : Table (List Bool)

namespace Model

/-- The model without worlds. -/
def empty : Model := ⟨0, [], ∅, ∅⟩

/-- The table of a side. -/
def table (m : Model) : Side → Table (List Bool)
  | .pro => m.pro
  | .con => m.con

/-- The model with another table of a side. -/
def withTable (m : Model) (s : Side) (t : Table (List Bool)) : Model :=
  match s with
  | .pro => { m with pro := t }
  | .con => { m with con := t }

/-- Whether one world is in sight of another. -/
def sees (m : Model) (v w : Nat) : Bool :=
  ((m.relation[v]?.bind fun row => row[w]?)).getD false

/-- The worlds in sight of a world, in ascending order. -/
def successors (m : Model) (v : Nat) : List Nat :=
  (m.relation[v]?.getD []).zipIdx.filterMap fun entry => if entry.1 then some entry.2 else none

/-- Whether there is evidence of a side for a variable at a world, if the table says. -/
def value? (m : Model) (s : Side) (name : String) (w : Nat) : Option Bool :=
  (m.table s)[name]?.bind fun values => values[w]?

/-- Whether two models are the same. -/
def same (m n : Model) : Bool :=
  m.worlds == n.worlds && m.relation == n.relation && m.pro == n.pro && m.con == n.con

@[simp] theorem worlds_withTable (m : Model) (s : Side) (t : Table (List Bool)) :
    (m.withTable s t).worlds = m.worlds := by
  cases s <;> rfl

@[simp] theorem relation_withTable (m : Model) (s : Side) (t : Table (List Bool)) :
    (m.withTable s t).relation = m.relation := by
  cases s <;> rfl

theorem table_withTable (m : Model) (s s' : Side) (t : Table (List Bool)) :
    (m.withTable s t).table s' = if s = s' then t else m.table s' := by
  cases s <;> cases s' <;> rfl

theorem sees_iff {m : Model} {v w : Nat} :
    m.sees v w = true ↔ ∃ row, m.relation[v]? = some row ∧ row[w]? = some true := by
  rw [sees]
  rcases m.relation[v]? with _ | row
  · simp
  · rcases hw : row[w]? with _ | b <;> simp [hw]

end Model

/-! ### What can be wrong -/

/-- Why a draft or an edit is refused. -/
inductive ModelError
  /-- The relation has not one row for each world. -/
  | rowCount (expected found : Nat)
  /-- A row of the relation has not one entry for each world. -/
  | rowLength (row expected found : Nat)
  /-- An entry of the relation is neither 0 nor 1. -/
  | relationEntry (source target : Nat) (value : Int)
  /-- A variable has not one entry for each world. -/
  | valueCount (side : Side) (name : String) (expected found : Nat)
  /-- An entry of a variable is neither 0 nor 1. -/
  | valueEntry (side : Side) (name : String) (world : Nat) (value : Int)
  /-- There is no such world. -/
  | noWorld (world worlds : Nat)
  /-- The table has no such variable. -/
  | noVariable (side : Side) (name : String)
deriving DecidableEq, Repr

/-- The fault as a message. -/
def ModelError.message : ModelError → String
  | rowCount expected found =>
    s!"Relation error: relation must have {expected} rows, found {found}"
  | rowLength row expected found =>
    s!"Relation error: row {row} must have {expected} entries, found {found}"
  | relationEntry source target value =>
    s!"Relation error: relation[{source}][{target}] must be 0 or 1, found {value}"
  | valueCount side name expected found =>
    s!"Valuation error: {side.tableName} of '{name}' must have {expected} entries, found {found}"
  | valueEntry side name world value =>
    s!"Valuation error: {side.tableName} of '{name}' at world {world} must be 0 or 1, "
      ++ s!"found {value}"
  | noWorld world worlds =>
    s!"World error: world {world} is out of range for a model of {worlds} worlds"
  | noVariable side name =>
    s!"Valuation error: '{name}' is not defined in {side.tableName}"

/-- Whether an integer is a truth value. -/
def isBit (v : Int) : Bool := v = 0 || v = 1

/-- The truth value an integer is. -/
def bitOf (v : Int) : Bool := v = 1

/-- The first entry of a row that is no truth value. -/
def entryFault? (fault : Nat → Int → ModelError) (row : List Int) : Option ModelError :=
  row.zipIdx.findSome? fun entry => if isBit entry.1 then none else some (fault entry.2 entry.1)

/-- What is wrong with a row of the relation: its length before its entries. -/
def rowFault? (worlds i : Nat) (row : List Int) : Option ModelError :=
  if row.length = worlds then entryFault? (.relationEntry i) row
  else some (.rowLength i worlds row.length)

/-- What is wrong with a relation: the number of rows before the rows. -/
def relationFault? (worlds : Nat) (rows : List (List Int)) : Option ModelError :=
  if rows.length = worlds then rows.zipIdx.findSome? fun entry => rowFault? worlds entry.2 entry.1
  else some (.rowCount worlds rows.length)

/-- What is wrong with the entries of a variable: their number before the entries. -/
def valuesFault? (worlds : Nat) (s : Side) (name : String) (values : List Int) :
    Option ModelError :=
  if values.length = worlds then entryFault? (.valueEntry s name) values
  else some (.valueCount s name worlds values.length)

/-- The entries of a list have no fault if their faults do not depend on where they stand. -/
theorem findSome?_zipIdx_eq_none_iff {α ε : Type} {fault : α × Nat → Option ε} {P : α → Prop}
    (h : ∀ a i, fault (a, i) = none ↔ P a) {as : List α} :
    as.zipIdx.findSome? fault = none ↔ ∀ a ∈ as, P a := by
  rw [List.findSome?_eq_none_iff]
  constructor
  · intro hnone a ha
    obtain ⟨i, hi⟩ := List.mem_iff_getElem?.mp ha
    exact (h a i).mp (hnone (a, i) (List.mem_zipIdx_iff_getElem?.mpr hi))
  · rintro hP ⟨a, i⟩ hentry
    exact (h a i).mpr (hP a (List.mem_of_getElem? (List.mem_zipIdx_iff_getElem?.mp hentry)))

theorem entryFault?_eq_none_iff (fault : Nat → Int → ModelError) {row : List Int} :
    entryFault? fault row = none ↔ ∀ v ∈ row, isBit v = true := by
  refine findSome?_zipIdx_eq_none_iff fun v i => ?_
  by_cases hbit : isBit v = true <;> simp [hbit]

theorem rowFault?_eq_none_iff {worlds i : Nat} {row : List Int} :
    rowFault? worlds i row = none ↔ row.length = worlds ∧ ∀ v ∈ row, isBit v = true := by
  rw [rowFault?, ← entryFault?_eq_none_iff (.relationEntry i)]
  split <;> simp_all

theorem relationFault?_eq_none_iff {worlds : Nat} {rows : List (List Int)} :
    relationFault? worlds rows = none ↔
      rows.length = worlds ∧ ∀ row ∈ rows, row.length = worlds ∧ ∀ v ∈ row, isBit v = true := by
  have hrows : (rows.zipIdx.findSome? fun entry => rowFault? worlds entry.2 entry.1) = none ↔
      ∀ row ∈ rows, row.length = worlds ∧ ∀ v ∈ row, isBit v = true :=
    findSome?_zipIdx_eq_none_iff fun _ _ => rowFault?_eq_none_iff
  rw [relationFault?, ← hrows]
  split <;> simp_all

theorem valuesFault?_eq_none_iff {worlds : Nat} {s : Side} {name : String} {values : List Int} :
    valuesFault? worlds s name values = none ↔
      values.length = worlds ∧ ∀ v ∈ values, isBit v = true := by
  rw [valuesFault?, ← entryFault?_eq_none_iff (.valueEntry s name)]
  split <;> simp_all

/-! ### Drafts -/

/-- What a model is built from. -/
structure Draft where
  /-- The number of worlds. -/
  worlds : Nat
  /-- The relation, with an entry 1 for a world in sight and 0 for any other. -/
  relation : Option (List (List Int)) := none
  /-- The table of evidence for the variables, with entries 0 and 1. -/
  pro : Option (Table (List Int)) := none
  /-- The table of evidence against the variables. -/
  con : Option (Table (List Int)) := none
  /-- Whether every world is in sight of itself; this matters only without a relation. -/
  reflexive : Bool := false

namespace Draft

/-- A step in which a draft is put together. -/
inductive Call
  | relation (rows : List (List Int))
  | reflexive (value : Bool)
  | values (side : Side) (name : String) (values : List Int)

/-- The draft after a step, which takes the place of what an earlier one said on the same matter. -/
def call (d : Draft) : Call → Draft
  | .relation rows => { d with relation := some rows }
  | .reflexive value => { d with reflexive := value }
  | .values .pro name values => { d with pro := some ((d.pro.getD ∅).insert name values) }
  | .values .con name values => { d with con := some ((d.con.getD ∅).insert name values) }

/-- The draft that is put together in some steps. -/
def ofCalls (worlds : Nat) (calls : List Call) : Draft :=
  calls.foldl call { worlds := worlds }

/-- **The first thing that is wrong** with a draft: the relation comes before the tables, and the
table of evidence for before the one of evidence against. -/
def fault? (d : Draft) : Option ModelError :=
  (d.relation.bind (relationFault? d.worlds)).or <|
    (d.pro.bind fun t => t.fault? (valuesFault? d.worlds .pro)).or <|
      d.con.bind fun t => t.fault? (valuesFault? d.worlds .con)

theorem fault?_eq_none_iff {d : Draft} :
    d.fault? = none ↔
      (∀ rows, d.relation = some rows → relationFault? d.worlds rows = none) ∧
      (∀ t, d.pro = some t → t.fault? (valuesFault? d.worlds .pro) = none) ∧
      ∀ t, d.con = some t → t.fault? (valuesFault? d.worlds .con) = none := by
  simp only [fault?, Option.or_eq_none_iff, Option.bind_eq_none_iff]

/-- The relation in which every world sees itself, or none sees any. -/
def diagonal (worlds : Nat) (reflexive : Bool) : List (List Bool) :=
  (List.range worlds).map fun v => (List.range worlds).map fun w => v == w && reflexive

/-- The truth values of a table. -/
def bits (t : Option (Table (List Int))) : Table (List Bool) :=
  (t.getD ∅).map fun _ values => values.map bitOf

/-- The model that a faultless draft describes. -/
def model (d : Draft) : Model where
  worlds := d.worlds
  relation := match d.relation with
    | some rows => rows.map (·.map bitOf)
    | none => diagonal d.worlds d.reflexive
  pro := bits d.pro
  con := bits d.con

/-- Builds the model, unless something is wrong with the draft. -/
def build (d : Draft) : Except ModelError Model :=
  match d.fault? with
  | some e => .error e
  | none => .ok d.model

theorem build_eq_ok_iff {d : Draft} {m : Model} :
    d.build = .ok m ↔ d.fault? = none ∧ d.model = m := by
  unfold build
  split <;> simp_all

theorem build_eq_error_iff {d : Draft} {e : ModelError} :
    d.build = .error e ↔ d.fault? = some e := by
  unfold build
  split <;> simp_all

end Draft

/-! ### Edits -/

/-- An edit of a model. -/
inductive Edit
  /-- Says whether a world is in sight of another. -/
  | relation (source target : Nat) (value : Int)
  /-- Gives all entries of a variable, which may be new. -/
  | values (side : Side) (name : String) (values : List Int)
  /-- Gives one entry of a variable, which must not be new. -/
  | value (side : Side) (name : String) (world : Nat) (value : Int)

namespace Model

/-- What is wrong with a world of a model: it does not exist. -/
def worldFault? (m : Model) (w : Nat) : Option ModelError :=
  if w < m.worlds then none else some (.noWorld w m.worlds)

/-- The first thing that is wrong with an edit: its worlds, then its entries, and for one entry
of a variable at last the variable. -/
def editFault? (m : Model) : Edit → Option ModelError
  | .relation source target value =>
    (m.worldFault? source).or <| (m.worldFault? target).or <|
      if isBit value then none else some (.relationEntry source target value)
  | .values s name values => valuesFault? m.worlds s name values
  | .value s name w value =>
    (m.worldFault? w).or <|
      (if isBit value then none else some (.valueEntry s name w value)).or <|
        if (m.table s).contains name then none else some (.noVariable s name)

/-- The model after a faultless edit. -/
def edited (m : Model) : Edit → Model
  | .relation source target value =>
    { m with relation := m.relation.modify source (·.set target (bitOf value)) }
  | .values s name values => m.withTable s ((m.table s).insert name (values.map bitOf))
  | .value s name w value =>
    m.withTable s ((m.table s).modify name (·.set w (bitOf value)))

/-- Edits a model, unless something is wrong with the edit. -/
def edit (m : Model) (e : Edit) : Except ModelError Model :=
  match m.editFault? e with
  | some fault => .error fault
  | none => .ok (m.edited e)

theorem edit_eq_ok_iff {m n : Model} {e : Edit} :
    m.edit e = .ok n ↔ m.editFault? e = none ∧ m.edited e = n := by
  unfold edit
  split <;> simp_all

theorem edit_eq_error_iff {m : Model} {e : Edit} {fault : ModelError} :
    m.edit e = .error fault ↔ m.editFault? e = some fault := by
  unfold edit
  split <;> simp_all

end Model

end TrustLogic.Kripke
