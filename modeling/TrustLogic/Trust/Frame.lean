import TrustLogic.Degree.Basic
import TrustLogic.Table

/-!
# Frames of trust

A frame says to which degree each agent holds each variable, and how much each agent trusts others.
Both are kept in tables of tables; what is not written in them is held to the degree zero, and an
agent that trusts no one is told apart from one that nothing is said about.

* `Frame` – the frames, `Frame.empty` and the two ways to write into one, `Frame.setDegree` and
  `Frame.setTrust`.
* `Frame.degree`, `Frame.trusted?`, `Frame.names` – the questions that can be asked of one.
* `Grid.get?_set` – what is read after writing into a table of tables.
-/

namespace TrustLogic.Trust

/-- A table of tables of degrees. -/
abbrev Grid := Table (Table Degree)

namespace Grid

/-- The degree written in a row and a column. -/
def get? (g : Grid) (row column : String) : Option Degree :=
  g[row]?.bind fun t => t[column]?

/-- The table with a degree written in a row and a column. -/
def set (g : Grid) (row column : String) (x : Degree) : Grid :=
  g.insert row ((g[row]?.getD ∅).insert column x)

theorem get?_set (g : Grid) (row column row' column' : String) (x : Degree) :
    (g.set row column x).get? row' column' =
      if row = row' ∧ column = column' then some x else g.get? row' column' := by
  by_cases hr : row = row'
  · subst hr
    by_cases hc : column = column' <;> cases h : g[row]? <;>
      simp [get?, set, Std.ExtTreeMap.getElem?_insert, hc, h]
  · simp [get?, set, Std.ExtTreeMap.getElem?_insert, hr]

/-- Whether two tables of tables hold the same numbers in the same places. -/
def same (g h : Grid) : Bool :=
  let rows := g.toList
  let rows' := h.toList
  rows.map Prod.fst == rows'.map Prod.fst &&
    (rows.zip rows').all fun pair =>
      let row := pair.1.2.toList
      let row' := pair.2.2.toList
      row.map Prod.fst == row'.map Prod.fst &&
        (row.zip row').all fun entries => Degree.same entries.1.2 entries.2.2

end Grid

/-- A frame of trust. -/
structure Frame where
  /-- By variable and agent, the degree to which the agent holds the variable. -/
  degrees : Grid
  /-- By truster and trustee, the trust that the one places in the other. -/
  trust : Grid
deriving DecidableEq

namespace Frame

/-- The frame that says nothing. -/
def empty : Frame := ⟨∅, ∅⟩

/-- The frame with another degree of a variable at an agent. -/
def setDegree (f : Frame) (name agent : String) (x : Degree) : Frame :=
  { f with degrees := f.degrees.set name agent x }

/-- The frame with another trust of one agent in another. -/
def setTrust (f : Frame) (truster trustee : String) (x : Degree) : Frame :=
  { f with trust := f.trust.set truster trustee x }

/-- The degree of a variable at an agent, zero where none is written. -/
def degree (f : Frame) (name agent : String) : Degree :=
  (f.degrees.get? name agent).getD Degree.zero

/-- The agents that an agent trusts and how much, if anything is said about that. -/
def trusted? (f : Frame) (agent : String) : Option (Table Degree) :=
  f.trust[agent]?

/-- The agents that an agent trusts and how much, by name. -/
def trusted (f : Frame) (agent : String) : List (String × Degree) :=
  ((f.trusted? agent).map fun t => t.toList).getD []

/-- The variables that the frame mentions, in the order of their names. -/
def names (f : Frame) : List String :=
  f.degrees.keys

/-- Whether two frames hold the same numbers in the same places. What is not a number is not the
same as itself. -/
def same (f g : Frame) : Bool :=
  f.degrees.same g.degrees && f.trust.same g.trust

end Frame

end TrustLogic.Trust
