import Std.Data.ExtTreeMap

/-!
# Tables

What is said about variables and agents is kept in tables by their names. A table is known by its
entries alone: two tables with the same entries are equal, in whatever order they were written, and
the entries are listed by name, in the order of code points.

* `Table` – tables from names to values.
* `Table.fault?` – the first entry, in that order, with which something is wrong.
* `Table.fault?_eq_none_iff` – nothing is wrong with a table when nothing is with any entry.
-/

namespace TrustLogic

/-- A table from names to values. -/
abbrev Table (α : Type) := Std.ExtTreeMap String α compare

namespace Table

variable {α ε : Type}

/-- The first fault of an entry, where `fault` says what is wrong with one. -/
def fault? (t : Table α) (fault : String → α → Option ε) : Option ε :=
  t.toList.findSome? fun entry => fault entry.1 entry.2

theorem fault?_eq_none_iff {t : Table α} {fault : String → α → Option ε} :
    t.fault? fault = none ↔ ∀ name a, t[name]? = some a → fault name a = none := by
  simp only [fault?, List.findSome?_eq_none_iff, Prod.forall,
    Std.ExtTreeMap.mem_toList_iff_getElem?_eq_some]

end Table

end TrustLogic
