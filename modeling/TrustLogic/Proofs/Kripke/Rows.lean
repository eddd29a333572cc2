import Mathlib.Data.List.Basic
import TrustLogic.Kripke.Model

/-!
# Rows of integers

A relation and the tables of a draft are made of rows of integers, which should have an entry 0 or 1
for each world. This is checked row by row and entry by entry, and the first thing that is wrong is
the one that counts. Here the checks are read the other way round: from a fault to the place where
it is, with everything before it in order.

* `TrustLogic.Kripke.IsRow` – the rows without faults; `TrustLogic.Kripke.RowViolation` – the fault
  of any other row.
* `TrustLogic.Kripke.rowFault?_eq_some_iff`, `TrustLogic.Kripke.valuesFault?_eq_some_iff` – the
  checks of a row of the relation and of the row of a variable, both from
  `TrustLogic.Kripke.rowCheck_eq_some_iff`.
* `TrustLogic.Kripke.relationFault?_eq_some_iff` – the check of a relation.
-/

namespace TrustLogic.Kripke

/-! ### Entries -/

/-- The first entry of a list with a fault, and its position: the entries before it have none. -/
theorem findSome?_zipIdx_eq_some_iff {α ε : Type} {fault : α × Nat → Option ε} {as : List α}
    {e : ε} :
    as.zipIdx.findSome? fault = some e ↔
      ∃ i a, as[i]? = some a ∧ fault (a, i) = some e ∧
        ∀ j b, j < i → as[j]? = some b → fault (b, j) = none := by
  rw [List.findSome?_eq_some_iff]
  constructor
  · rintro ⟨before, ⟨a, i⟩, after, hsplit, hfault, hnone⟩
    -- the entries stand at their positions, so there are as many before it as its position says
    have hentry : as.zipIdx[before.length]? = some (a, i) := by
      rw [hsplit, List.getElem?_append_right (Nat.le_refl _), Nat.sub_self, List.getElem?_cons_zero]
    obtain ⟨ha, rfl⟩ : as[before.length]? = some a ∧ before.length = i := by
      simpa [List.getElem?_zipIdx] using hentry
    refine ⟨_, a, ha, hfault, fun j b hj hb => hnone _ ?_⟩
    have hbefore : as.zipIdx[j]? = before[j]? := by
      rw [hsplit, List.getElem?_append_left hj]
    refine List.mem_of_getElem? (hbefore.symm.trans ?_)
    simpa [List.getElem?_zipIdx] using hb
  · rintro ⟨i, a, ha, hfault, hnone⟩
    have hentry : as.zipIdx[i]? = some (a, i) := by simpa [List.getElem?_zipIdx] using ha
    obtain ⟨hi, hget⟩ := List.getElem?_eq_some_iff.mp hentry
    refine ⟨as.zipIdx.take i, (a, i), as.zipIdx.drop (i + 1), ?_, hfault, ?_⟩
    · rw [← hget, List.getElem_cons_drop, List.take_append_drop]
    · rintro ⟨b, j⟩ hmem
      obtain ⟨k, hk⟩ := List.mem_iff_getElem?.mp hmem
      obtain ⟨hki, hb, rfl⟩ : k < i ∧ as[k]? = some b ∧ k = j := by
        simpa [List.getElem?_take, List.getElem?_zipIdx] using hk
      exact hnone k b hki hb

/-- The first entry that is no truth value, with its position. -/
theorem entryFault?_eq_some_iff {fault : Nat → Int → ModelError} {row : List Int}
    {e : ModelError} :
    entryFault? fault row = some e ↔
      ∃ i v, row[i]? = some v ∧ isBit v = false ∧
        (∀ j u, j < i → row[j]? = some u → isBit u = true) ∧ e = fault i v := by
  have hnone (j : Nat) (u : Int) :
      (if isBit u then none else some (fault j u)) = none ↔ isBit u = true := by
    cases isBit u <;> simp
  have hsome (i : Nat) (v : Int) :
      (if isBit v then none else some (fault i v)) = some e ↔ isBit v = false ∧ e = fault i v := by
    cases isBit v <;> simp [eq_comm]
  rw [entryFault?, findSome?_zipIdx_eq_some_iff]
  simp only [hnone, hsome]
  constructor
  · rintro ⟨i, v, hv, ⟨hbit, he⟩, hfirst⟩
    exact ⟨i, v, hv, hbit, hfirst, he⟩
  · rintro ⟨i, v, hv, hbit, hfirst, he⟩
    exact ⟨i, v, hv, ⟨hbit, he⟩, hfirst⟩

theorem isBit_eq_true_iff {v : Int} : isBit v = true ↔ v = 0 ∨ v = 1 := by
  simp [isBit]

theorem isBit_eq_false_iff {v : Int} : isBit v = false ↔ v ≠ 0 ∧ v ≠ 1 := by
  simp [isBit]

/-! ### Rows and relations -/

/-- A row with an entry 0 or 1 for each world. -/
def IsRow (worlds : Nat) (row : List Int) : Prop :=
  row.length = worlds ∧ ∀ i ∈ row, i = 0 ∨ i = 1

/-- **What a row violates first**, its length before its entries from left to right. Which fault
this is depends on what the row is a row of. -/
inductive RowViolation (worlds : Nat) (count : ModelError) (entry : Nat → Int → ModelError)
    (row : List Int) : ModelError → Prop
  /-- The row does not have one entry for each world. -/
  | count (hlen : row.length ≠ worlds) : RowViolation worlds count entry row count
  /-- An entry is neither 0 nor 1, and no entry before is so. -/
  | entry {w : Nat} {i : Int} (hlen : row.length = worlds) (hw : row[w]? = some i)
    (hi : i ≠ 0 ∧ i ≠ 1) (hfirst : ∀ v j, v < w → row[v]? = some j → j = 0 ∨ j = 1) :
    RowViolation worlds count entry row (entry w i)

section Rows

variable {worlds : Nat} {count e : ModelError} {entry : Nat → Int → ModelError} {row : List Int}
  {rows : List (List Int)}

theorem isRow_iff : IsRow worlds row ↔ row.length = worlds ∧ ∀ i ∈ row, isBit i = true := by
  simp only [IsRow, isBit_eq_true_iff]

/-- Rows of the relation and rows of the tables are checked alike. -/
theorem rowCheck_eq_some_iff :
    (if row.length = worlds then entryFault? entry row else some count) = some e ↔
      RowViolation worlds count entry row e := by
  constructor
  · intro h
    split at h
    · next hlen =>
      obtain ⟨w, i, hw, hi, hfirst, rfl⟩ := entryFault?_eq_some_iff.mp h
      exact .entry hlen hw (isBit_eq_false_iff.mp hi)
        fun v j hv hj => isBit_eq_true_iff.mp (hfirst v j hv hj)
    · next hlen =>
      obtain rfl := Option.some.inj h
      exact .count hlen
  · rintro (hlen | ⟨hlen, hw, hi, hfirst⟩)
    · rw [if_neg hlen]
    · rw [if_pos hlen, entryFault?_eq_some_iff]
      exact ⟨_, _, hw, isBit_eq_false_iff.mpr hi,
        fun v j hv hj => isBit_eq_true_iff.mpr (hfirst v j hv hj), rfl⟩

theorem rowFault?_eq_some_iff {v : Nat} :
    rowFault? worlds v row = some e ↔
      RowViolation worlds (.rowLength v worlds row.length) (.relationEntry v) row e :=
  rowCheck_eq_some_iff

theorem valuesFault?_eq_some_iff {s : Side} {name : String} :
    valuesFault? worlds s name row = some e ↔
      RowViolation worlds (.valueCount s name worlds row.length) (.valueEntry s name) row e :=
  rowCheck_eq_some_iff

/-- **The first fault of a relation** is the number of its rows, or else that of its first row with
one. -/
theorem relationFault?_eq_some_iff :
    relationFault? worlds rows = some e ↔
      (rows.length ≠ worlds ∧ e = .rowCount worlds rows.length) ∨
      rows.length = worlds ∧ ∃ v row, rows[v]? = some row ∧
        RowViolation worlds (.rowLength v worlds row.length) (.relationEntry v) row e ∧
        ∀ u row', u < v → rows[u]? = some row' → IsRow worlds row' := by
  rw [relationFault?]
  by_cases hlen : rows.length = worlds
  · rw [if_pos hlen, findSome?_zipIdx_eq_some_iff]
    simp only [rowFault?_eq_none_iff, ← isRow_iff, rowFault?_eq_some_iff, hlen, ne_eq,
      not_true_eq_false, false_and, false_or, true_and]
  · simp [hlen, eq_comm]

end Rows

end TrustLogic.Kripke
