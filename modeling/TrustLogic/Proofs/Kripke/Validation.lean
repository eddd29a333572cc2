import Mathlib.Data.List.Induction
import TrustLogic.Proofs.Kripke.Rebuilding

/-!
# What can be built, and what is reported otherwise

A draft is an optional matrix of integers and two tables of rows of integers, and nothing keeps them
from being ragged or from having entries other than 0 and 1. A model is built from it if nothing of
this kind is the case, and otherwise the first violation is reported. This file says what a draft
without violations is, what its model answers, and which violation is the first one, without going
through any check in the order in which it is made.

* `TrustLogic.Kripke.Draft.Valid` – the drafts that can be built.
* `TrustLogic.Kripke.Draft.Describes` – what the entries of a draft say about a model.
* `TrustLogic.Kripke.Draft.FirstViolation` – a violation such that everything that comes before it
  is in order.
* `TrustLogic.Kripke.Draft.Listing` – an order in which the variables of the tables are gone
  through.
* `TrustLogic.Kripke.Draft.AssembledBy` – the drafts that some calls put together: what counts is
  what the last call on a matter said.

The entries of a table have no order, so two variables of one table with violations both come first.
Building goes by name; it could as well go through the variables in any other order, and then each
of them may be the one that is reported (`TrustLogic.Kripke.Draft.FirstViolation.exists_listing`).
-/

namespace TrustLogic.Kripke

namespace Draft

variable {d d' : Draft} {e : ModelError} {m : Model}

/-! ### Drafts without violations -/

/-- The relation, where it is given, is a square of entries 0 and 1. -/
def ValidRelation (d : Draft) : Prop :=
  ∀ rows, d.relation = some rows →
    rows.length = d.worlds ∧ ∀ row ∈ rows, IsRow d.worlds row

/-- Every variable of a table has an entry 0 or 1 for each world. -/
def ValidTable (d : Draft) (s : Side) : Prop :=
  ∀ (name : String) (row : List Int), (d.table s)[name]? = some row → IsRow d.worlds row

/-- **The drafts without violations.** -/
structure Valid (d : Draft) : Prop where
  /-- There is nothing wrong with the relation. -/
  relation : d.ValidRelation
  /-- There is nothing wrong with either table. -/
  table : ∀ s, d.ValidTable s

/-- **What a draft says about a model.** A relation that is not given is the diagonal or empty, and
one that is given counts alone. -/
structure Describes (d : Draft) (m : Model) : Prop where
  /-- The model has as many worlds as the draft says. -/
  worlds : m.worlds = d.worlds
  /-- Worlds see each other where the draft has a 1 for them. -/
  sees : ∀ v w, m.sees v w = true ↔ v < d.worlds ∧ w < d.worlds ∧
    match d.relation with
    | some rows => ∃ row, rows[v]? = some row ∧ row[w]? = some 1
    | none => v = w ∧ d.reflexive = true
  /-- The truth values of a variable are its entries, and there are no others. -/
  value? : ∀ s name w b, m.value? s name w = some b ↔
    w < d.worlds ∧ ∃ row i, (d.table s)[name]? = some row ∧ row[w]? = some i ∧ b = decide (i = 1)

theorem validRelation_iff :
    d.ValidRelation ↔ d.relation.bind (relationFault? d.worlds) = none := by
  rw [Option.bind_eq_none_iff]
  simp only [ValidRelation, relationFault?_eq_none_iff, isRow_iff]

theorem getElem?_map_bitOf_eq_some_iff {row : List Int} {w : Nat} {b : Bool} :
    (row.map bitOf)[w]? = some b ↔ ∃ i, row[w]? = some i ∧ b = decide (i = 1) := by
  simp only [List.getElem?_map, Option.map_eq_some_iff, bitOf, eq_comm (a := b)]

theorem getElem?_diagonal_eq_some_true_iff {worlds v w : Nat} {reflexive : Bool} :
    (∃ row, (diagonal worlds reflexive)[v]? = some row ∧ row[w]? = some true) ↔
      v < worlds ∧ w < worlds ∧ v = w ∧ reflexive = true := by
  by_cases hv : v < worlds <;> by_cases hw : w < worlds <;> simp [diagonal, hv, hw]

/-- The model of a draft without violations is the one that it describes. -/
theorem Valid.describes_model (hd : d.Valid) : d.Describes d.model where
  worlds := rfl
  sees v w := by
    rw [Model.sees_iff]
    rcases hrel : d.relation with _ | rows
    · simp only [model, hrel]
      exact getElem?_diagonal_eq_some_true_iff
    · obtain ⟨hlen, hrows⟩ := hd.relation rows hrel
      simp only [model, hrel, List.getElem?_map, Option.map_eq_some_iff]
      constructor
      · rintro ⟨_, ⟨row, hrow, rfl⟩, hbit⟩
        obtain ⟨i, hi, hone⟩ := getElem?_map_bitOf_eq_some_iff.mp hbit
        obtain rfl : i = 1 := by simpa using hone
        obtain ⟨hv, -⟩ := List.getElem?_eq_some_iff.mp hrow
        obtain ⟨hw, -⟩ := List.getElem?_eq_some_iff.mp hi
        rw [hlen] at hv
        rw [(hrows row (List.mem_of_getElem? hrow)).1] at hw
        exact ⟨hv, hw, row, hrow, hi⟩
      · rintro ⟨-, -, row, hrow, hi⟩
        exact ⟨_, ⟨row, hrow, rfl⟩, getElem?_map_bitOf_eq_some_iff.mpr ⟨1, hi, rfl⟩⟩
  value? s name w b := by
    rw [Model.value?, table_model, Std.ExtTreeMap.getElem?_map, Option.bind_eq_some_iff]
    constructor
    · rintro ⟨_, hname, hbit⟩
      obtain ⟨row, hrow, rfl⟩ := Option.map_eq_some_iff.mp hname
      obtain ⟨i, hi, hb⟩ := getElem?_map_bitOf_eq_some_iff.mp hbit
      obtain ⟨hw, -⟩ := List.getElem?_eq_some_iff.mp hi
      rw [(hd.table s name row hrow).1] at hw
      exact ⟨hw, row, i, hrow, hi, hb⟩
    · rintro ⟨-, row, i, hrow, hi, hb⟩
      exact ⟨_, Option.map_eq_some_iff.mpr ⟨row, hrow, rfl⟩,
        getElem?_map_bitOf_eq_some_iff.mpr ⟨i, hi, hb⟩⟩

/-! ### The order of the variables -/

/-- **An order of the variables** of either table, with their entries. -/
structure Listing (d : Draft) where
  /-- The variables of a table, one after another. -/
  entries : Side → List (String × List Int)
  /-- Each variable of the table is gone through once. -/
  perm : ∀ s, (entries s).Perm (d.table s).toList

namespace Listing

/-- The order by name. -/
def byName (d : Draft) : Listing d where
  entries s := (d.table s).toList
  perm s := .refl (d.table s).toList

/-- The first fault of a table in the order of its variables. -/
def tableFault? (o : Listing d) (s : Side) : Option ModelError :=
  (o.entries s).findSome? fun entry => valuesFault? d.worlds s entry.1 entry.2

/-- The first fault of the draft. -/
def fault? (o : Listing d) : Option ModelError :=
  (d.relation.bind (relationFault? d.worlds)).or <| (o.tableFault? .pro).or (o.tableFault? .con)

/-- **Building with the variables in a given order.** -/
def build (o : Listing d) : Except ModelError Model :=
  match o.fault? with
  | some e => .error e
  | none => .ok d.model

variable {o : Listing d} {s : Side}

theorem build_eq_ok_iff : o.build = .ok m ↔ o.fault? = none ∧ d.model = m := by
  unfold build
  split <;> simp_all

theorem build_eq_error_iff : o.build = .error e ↔ o.fault? = some e := by
  unfold build
  split <;> simp_all

theorem mem_entries_iff {name : String} {row : List Int} :
    (name, row) ∈ o.entries s ↔ (d.table s)[name]? = some row := by
  rw [(o.perm s).mem_iff, Std.ExtTreeMap.mem_toList_iff_getElem?_eq_some]

theorem tableFault?_eq_none_iff : o.tableFault? s = none ↔ d.ValidTable s := by
  simp only [tableFault?, List.findSome?_eq_none_iff, Prod.forall, mem_entries_iff, ValidTable,
    valuesFault?_eq_none_iff, isRow_iff]

theorem fault?_eq_none_iff : o.fault? = none ↔ d.Valid := by
  rw [fault?, Option.or_eq_none_iff, Option.or_eq_none_iff, ← validRelation_iff,
    tableFault?_eq_none_iff, tableFault?_eq_none_iff]
  constructor
  · rintro ⟨hrel, hpro, hcon⟩
    refine ⟨hrel, ?_⟩
    rintro (_ | _)
    · exact hpro
    · exact hcon
  · rintro ⟨hrel, htable⟩
    exact ⟨hrel, htable .pro, htable .con⟩

end Listing

/-- **The first violation of a draft.** The relation comes first, with the number of its rows before
the rows from top to bottom; then comes the table of evidence for, and then the one of evidence
against. Within a table any variable with a violation counts. -/
inductive FirstViolation (d : Draft) : ModelError → Prop
  /-- The relation does not have one row for each world. -/
  | rowCount {rows : List (List Int)} (hrel : d.relation = some rows)
    (hlen : rows.length ≠ d.worlds) : FirstViolation d (.rowCount d.worlds rows.length)
  /-- A row of the relation has a violation, and no row before has one. -/
  | row {rows : List (List Int)} {v : Nat} {row : List Int} {e : ModelError}
    (hrel : d.relation = some rows) (hlen : rows.length = d.worlds) (hv : rows[v]? = some row)
    (hrow : RowViolation d.worlds (.rowLength v d.worlds row.length) (.relationEntry v) row e)
    (hfirst : ∀ u row', u < v → rows[u]? = some row' → IsRow d.worlds row') : FirstViolation d e
  /-- A variable has a violation, and what comes before its table has none. -/
  | values {s : Side} {name : String} {row : List Int} {e : ModelError}
    (hrel : d.ValidRelation) (htable : s = .con → d.ValidTable .pro)
    (hname : (d.table s)[name]? = some row)
    (hrow : RowViolation d.worlds (.valueCount s name d.worlds row.length) (.valueEntry s name) row
      e) : FirstViolation d e

/-- The first fault of a relation is a first violation. -/
theorem firstViolation_of_relationFault? {rows : List (List Int)} (hrel : d.relation = some rows)
    (h : relationFault? d.worlds rows = some e) : d.FirstViolation e := by
  rcases relationFault?_eq_some_iff.mp h with ⟨hlen, rfl⟩ | ⟨hlen, v, row, hv, hrow, hfirst⟩
  · exact .rowCount hrel hlen
  · exact .row hrel hlen hv hrow hfirst

namespace Listing

variable {o : Listing d} {s : Side}

/-- The first fault of a table is a first violation if nothing comes before the table. -/
theorem firstViolation_of_tableFault? (hrel : d.ValidRelation)
    (htable : s = .con → d.ValidTable .pro) (h : o.tableFault? s = some e) :
    d.FirstViolation e := by
  obtain ⟨⟨name, row⟩, hmem, hrow⟩ := List.exists_of_findSome?_eq_some h
  exact .values hrel htable (mem_entries_iff.mp hmem) (valuesFault?_eq_some_iff.mp hrow)

/-- **What is reported is a first violation**, in whatever order the variables are gone through. -/
theorem firstViolation_of_fault? (h : o.fault? = some e) : d.FirstViolation e := by
  rw [fault?, Option.or_eq_some_iff, Option.or_eq_some_iff, ← validRelation_iff,
    tableFault?_eq_none_iff] at h
  rcases h with hrel | ⟨hrel, hpro | ⟨hpro, hcon⟩⟩
  · obtain ⟨rows, hrows, hfault⟩ := Option.bind_eq_some_iff.mp hrel
    exact firstViolation_of_relationFault? hrows hfault
  · exact firstViolation_of_tableFault? (s := .pro) hrel (fun h => nomatch h) hpro
  · exact firstViolation_of_tableFault? hrel (fun _ => hpro) hcon

/-- An order in which a variable comes first in its table. -/
theorem exists_entries_eq_cons {name : String} {row : List Int}
    (h : (d.table s)[name]? = some row) :
    ∃ (o : Listing d) (rest : List (String × List Int)), o.entries s = (name, row) :: rest := by
  have hmem : (name, row) ∈ (d.table s).toList :=
    Std.ExtTreeMap.mem_toList_iff_getElem?_eq_some.mpr h
  refine ⟨⟨fun s' => if s' = s then (name, row) :: (d.table s).toList.erase (name, row)
    else (d.table s').toList, fun s' => ?_⟩, _, if_pos rfl⟩
  split
  · next hs => exact hs ▸ (List.perm_cons_erase hmem).symm
  · exact .refl _

end Listing

/-- **Each first violation may be the one that is reported**, in a suitable order of the
variables. -/
theorem FirstViolation.exists_listing (h : d.FirstViolation e) :
    ∃ o : Listing d, o.fault? = some e := by
  cases h with
  | rowCount hrel hlen =>
    refine ⟨.byName d, ?_⟩
    rw [Listing.fault?, hrel, Option.bind_some, relationFault?, if_neg hlen, Option.some_or]
  | row hrel hlen hv hrow hfirst =>
    refine ⟨.byName d, ?_⟩
    rw [Listing.fault?, hrel, Option.bind_some,
      relationFault?_eq_some_iff.mpr (.inr ⟨hlen, _, _, hv, hrow, hfirst⟩), Option.some_or]
  | @values s name row e hrel htable hname hrow =>
    -- the variable is gone through before the others of its table
    obtain ⟨o, rest, ho⟩ := Listing.exists_entries_eq_cons hname
    have hfault : o.tableFault? s = some e := by
      rw [Listing.tableFault?, ho, List.findSome?_cons, valuesFault?_eq_some_iff.mpr hrow]
    refine ⟨o, ?_⟩
    rw [Listing.fault?, validRelation_iff.mp hrel, Option.none_or]
    cases s with
    | pro => rw [hfault, Option.some_or]
    | con => rw [Listing.tableFault?_eq_none_iff.mpr (htable rfl), Option.none_or, hfault]

/-- **Building goes by name.** -/
theorem build_eq_build_byName (d : Draft) : d.build = (Listing.byName d).build := by
  rw [build, fault?_eq_tables]
  rfl

/-! ### Drafts put together by calls -/

/-- Drafts that differ at most in whether an empty table is given are built alike. -/
theorem build_congr (hworlds : d.worlds = d'.worlds) (hrel : d.relation = d'.relation)
    (hreflexive : d.reflexive = d'.reflexive) (htable : ∀ s, d.table s = d'.table s) :
    d.build = d'.build := by
  have hmodel : d.model = d'.model := by
    have hpro : bits d.pro = bits d'.pro :=
      congrArg (·.map fun _ values => values.map bitOf) (htable .pro)
    have hcon : bits d.con = bits d'.con :=
      congrArg (·.map fun _ values => values.map bitOf) (htable .con)
    rw [model, model, hworlds, hrel, hreflexive, hpro, hcon]
  have hfault : d.fault? = d'.fault? := by
    rw [fault?_eq_tables, fault?_eq_tables, hworlds, hrel, htable, htable]
  rw [build, build, hfault, hmodel]

/-- The relation that a call gives. -/
def Call.relation? : Call → Option (List (List Int))
  | .relation rows => some rows
  | _ => none

/-- What a call says about every world seeing itself. -/
def Call.reflexive? : Call → Option Bool
  | .reflexive value => some value
  | _ => none

/-- The entries that a call gives to a variable in a table. -/
def Call.values? (s : Side) (name : String) : Call → Option (List Int)
  | .values s' name' row => if s' = s ∧ name' = name then some row else none
  | _ => none

/-- **The last thing** that some calls say on a matter. -/
def lastOf {α : Type} (said? : Call → Option α) (calls : List Call) : Option α :=
  calls.reverse.findSome? said?

theorem lastOf_append_singleton {α : Type} (said? : Call → Option α) (calls : List Call)
    (c : Call) : lastOf said? (calls ++ [c]) = (said? c).or (lastOf said? calls) := by
  rw [lastOf, List.reverse_append, List.findSome?_append, List.reverse_singleton,
    List.findSome?_singleton, lastOf]

/-- **The drafts that some calls put together**: on each matter the last call counts. -/
structure AssembledBy (d : Draft) (calls : List Call) : Prop where
  /-- The last relation counts. -/
  relation : d.relation = lastOf Call.relation? calls
  /-- The last answer to whether every world sees itself counts, and without one it is no. -/
  reflexive : d.reflexive = (lastOf Call.reflexive? calls).getD false
  /-- The last entries of a variable count, in each table for itself. -/
  table : ∀ s name, (d.table s)[name]? = lastOf (Call.values? s name) calls

theorem call_values (d : Draft) (s : Side) (name : String) (row : List Int) :
    d.call (.values s name row) = d.withTable s ((d.table s).insert name row) := by
  cases s <;> rfl

/-- What a variable has after a call. -/
theorem getElem?_table_call (d : Draft) (c : Call) (s : Side) (name : String) :
    ((d.call c).table s)[name]? = (c.values? s name).or (d.table s)[name]? := by
  cases c with
  | relation rows => cases s <;> rfl
  | reflexive value => cases s <;> rfl
  | values s' name' row =>
    rw [call_values, table_withTable, Call.values?]
    by_cases hs : s' = s
    · obtain rfl := hs
      rw [if_pos rfl, Std.ExtTreeMap.getElem?_insert]
      by_cases hname : name' = name <;> simp [hname]
    · simp [hs]

/-- **One more call** counts on its matter, and on the others the calls before it go on counting. -/
theorem AssembledBy.call {calls : List Call} (h : d.AssembledBy calls) (c : Call) :
    (d.call c).AssembledBy (calls ++ [c]) where
  relation := by
    rw [lastOf_append_singleton, ← h.relation]
    rcases c with rows | value | ⟨_ | _, name, row⟩ <;> rfl
  reflexive := by
    rw [lastOf_append_singleton]
    rcases c with rows | value | ⟨_ | _, name, row⟩
    · exact h.reflexive
    · rfl
    · exact h.reflexive
    · exact h.reflexive
  table s name := by rw [lastOf_append_singleton, getElem?_table_call, h.table]

theorem worlds_call (d : Draft) (c : Call) : (d.call c).worlds = d.worlds := by
  rcases c with rows | value | ⟨_ | _, name, row⟩ <;> rfl

theorem ofCalls_append_singleton (worlds : Nat) (calls : List Call) (c : Call) :
    ofCalls worlds (calls ++ [c]) = (ofCalls worlds calls).call c := by
  rw [ofCalls, List.foldl_append, List.foldl_cons, List.foldl_nil, ofCalls]

theorem worlds_ofCalls (worlds : Nat) (calls : List Call) :
    (ofCalls worlds calls).worlds = worlds := by
  induction calls using List.reverseRecOn with
  | nil => rfl
  | append_singleton calls c ih => rw [ofCalls_append_singleton, worlds_call, ih]

/-- **All calls**, by induction on the last one. -/
theorem assembledBy_ofCalls (worlds : Nat) (calls : List Call) :
    (ofCalls worlds calls).AssembledBy calls := by
  induction calls using List.reverseRecOn with
  | nil =>
    refine ⟨rfl, rfl, fun s name => ?_⟩
    cases s <;> rfl
  | append_singleton calls c ih => exact ofCalls_append_singleton worlds calls c ▸ ih.call c

/-- Calls leave nothing open: the drafts that they put together are built alike. -/
theorem AssembledBy.build_ofCalls {calls : List Call} (h : d.AssembledBy calls) :
    (ofCalls d.worlds calls).build = d.build := by
  have hcalls := assembledBy_ofCalls d.worlds calls
  refine build_congr (worlds_ofCalls d.worlds calls) (hcalls.relation.trans h.relation.symm)
    (hcalls.reflexive.trans h.reflexive.symm) fun s => ?_
  exact Std.ExtTreeMap.ext_getElem? fun name => (hcalls.table s name).trans (h.table s name).symm

/-! ### Building -/

/-- **A draft is built exactly**, where a result is given: a model comes about unless the draft has
a violation, it answers what the draft says, and otherwise a first violation is reported. -/
structure BuiltExactly (d : Draft) (result : Except ModelError Model) : Prop where
  /-- There is a model if and only if the draft has no violation. -/
  isOk_iff : (∃ m, result = .ok m) ↔ d.Valid
  /-- The model is the one that the draft describes. -/
  describes : ∀ m, result = .ok m → d.Describes m
  /-- What is reported is a first violation. -/
  firstViolation : ∀ e, result = .error e → d.FirstViolation e

theorem Listing.builtExactly (o : Listing d) : d.BuiltExactly o.build where
  isOk_iff := by simp only [build_eq_ok_iff, fault?_eq_none_iff, exists_and_left, exists_eq',
    and_true]
  describes m hm := by
    obtain ⟨hfault, rfl⟩ := build_eq_ok_iff.mp hm
    exact (fault?_eq_none_iff.mp hfault).describes_model
  firstViolation e he := firstViolation_of_fault? (build_eq_error_iff.mp he)

/-- **Building is exact.** From a draft a model is built if and only if the relation, where it is
given, is a square of entries 0 and 1 for the worlds and every variable of the tables has such an
entry for each world. The model sees and knows what the draft says and nothing else. If it is not
built, then a first violation is reported; this holds for every order in which the variables may be
gone through, and in a suitable one each of the first violations is reported. Calls put together
drafts in which the last one on each matter counts, and whatever draft says the same is built
alike. -/
theorem build_exact (d : Draft) :
    d.BuiltExactly d.build ∧
    (∀ o : Listing d, d.BuiltExactly o.build) ∧
    (∀ e, d.FirstViolation e → ∃ o : Listing d, o.build = .error e) ∧
    ∀ calls, (ofCalls d.worlds calls).AssembledBy calls ∧
      (d.AssembledBy calls → (ofCalls d.worlds calls).build = d.build) := by
  refine ⟨?_, Listing.builtExactly, fun e he => ?_, fun calls => ⟨?_, AssembledBy.build_ofCalls⟩⟩
  · rw [build_eq_build_byName]
    exact Listing.builtExactly _
  · obtain ⟨o, ho⟩ := he.exists_listing
    exact ⟨o, Listing.build_eq_error_iff.mpr ho⟩
  · exact assembledBy_ofCalls d.worlds calls

/-- A draft with violations of two variables in one table and of another one in the other. -/
def faulty : Draft :=
  .ofCalls 2 [.relation [[0, 1], [1, 0]], .values .pro "p" [1], .values .pro "q" [0, 3],
    .values .con "p" [2, 2]]

/-- Calls that come to the same, after they have said other things. -/
def roundabout : List Call :=
  [.values .con "p" [2, 2], .values .pro "q" [7], .relation [[2], [1, 1, 0]],
    .values .pro "q" [0, 3], .relation [[0, 1], [1, 0]], .values .pro "p" [1]]

theorem assembledBy_roundabout : faulty.AssembledBy roundabout where
  relation := rfl
  reflexive := rfl
  table s name := by
    rw [faulty, (assembledBy_ofCalls 2 _).table]
    by_cases hp : "p" = name
    · subst hp
      cases s <;> rfl
    · by_cases hq : "q" = name
      · subst hq
        cases s <;> rfl
      · cases s <;> simp [lastOf, roundabout, List.findSome?_cons, Call.values?, hp, hq]

/-- Both variables of the table of evidence for are first violations, the one with an entry missing
and the one with an entry that is no truth value. -/
theorem build_exact_faulty :
    faulty.build = .error (.valueCount .pro "p" 2 1) ∧
    faulty.FirstViolation (.valueCount .pro "p" 2 1) ∧
    (∃ o : Listing faulty, o.build = .error (.valueEntry .pro "q" 1 3)) ∧
    (ofCalls 2 roundabout).build = faulty.build := by
  have hbuild : faulty.build = .error (.valueCount .pro "p" 2 1) := rfl
  have hrel : faulty.ValidRelation := validRelation_iff.mpr rfl
  have hname : (faulty.table .pro)["q"]? = some [0, 3] := rfl
  have hfault : valuesFault? faulty.worlds .pro "q" [0, 3] = some (.valueEntry .pro "q" 1 3) := rfl
  have hviolation : faulty.FirstViolation (.valueEntry .pro "q" 1 3) :=
    .values (s := .pro) hrel (fun h => nomatch h) hname (valuesFault?_eq_some_iff.mp hfault)
  obtain ⟨hexact, -, hlisting, hcalls⟩ := build_exact faulty
  exact ⟨hbuild, hexact.firstViolation _ hbuild, hlisting _ hviolation,
    (hcalls roundabout).2 assembledBy_roundabout⟩

end Draft

end TrustLogic.Kripke
