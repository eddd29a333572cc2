import Mathlib.Data.List.Induction
import TrustLogic.Proofs.Trust.Influence

/-!
# What writing into a frame comes to

A frame is written by one entry after the other, some of them degrees and some of them trust. This
file says what is in a frame at last: under every pair of names the last number that was written for
this pair, and nothing else. The degrees and the trust are two stores of the same kind, and what is
written into the one is not seen in the other.

* `TrustLogic.Trust.Entry` – a number to be written in a row and a column of a table of tables, and
  `TrustLogic.Trust.lastValue`, the last number that some entries write there.
* `TrustLogic.Trust.Grid.get?_setAll` – a table of tables holds the last number of its entries in
  every place, and `TrustLogic.Trust.Grid.mem_setAll_iff` – it has the rows that they name. The two
  say all that there is to know of the table, so entries with the same last numbers make the same
  table (`TrustLogic.Trust.Grid.setAll_congr`).
* `TrustLogic.Trust.Frame.writes_eq` – writing into a frame is writing the degrees into the one table
  and the trust into the other.

An entry is kept in a row of its own table, which is a table again and is taken out, changed and put
back. That the other entries of the row are still there is what the lemmas on rows are about.
-/

namespace TrustLogic.Trust

open Degree (standing)

/-! ### One table of tables -/

/-- A number to be written in a row and a column. -/
structure Entry where
  row : String
  column : String
  value : Degree

/-- The number that an entry writes in a place, if it writes there. -/
def Entry.valueAt? (row column : String) (e : Entry) : Option Degree :=
  if e.row = row ∧ e.column = column then some e.value else none

/-- **The last number that some entries write in a place.** -/
def lastValue (es : List Entry) (row column : String) : Option Degree :=
  es.reverse.findSome? (Entry.valueAt? row column)

theorem lastValue_append_singleton (es : List Entry) (e : Entry) (row column : String) :
    lastValue (es ++ [e]) row column = (e.valueAt? row column).or (lastValue es row column) := by
  rw [lastValue, List.reverse_append, List.findSome?_append, List.reverse_singleton,
    List.findSome?_singleton, lastValue]

theorem lastValue_isSome_iff {es : List Entry} {row column : String} :
    (lastValue es row column).isSome ↔ ∃ e ∈ es, e.row = row ∧ e.column = column := by
  simp [lastValue, Entry.valueAt?, List.findSome?_isSome_iff]

namespace Grid

variable {g h : Grid} {es : List Entry} {row column : String}

/-- The table of tables with some entries written, one after the other. -/
def setAll (g : Grid) (es : List Entry) : Grid :=
  es.foldl (fun g e => g.set e.row e.column e.value) g

theorem setAll_append_singleton (g : Grid) (es : List Entry) (e : Entry) :
    g.setAll (es ++ [e]) = (g.setAll es).set e.row e.column e.value := by
  rw [setAll, List.foldl_append, List.foldl_cons, List.foldl_nil, setAll]

/-- Writing adds a row where there was none, and takes none away. -/
theorem mem_set_iff {row' : String} {x : Degree} :
    row' ∈ g.set row column x ↔ row = row' ∨ row' ∈ g := by
  rw [set, Std.ExtTreeMap.mem_insert, Std.compare_eq_iff_eq]

/-- **Every place holds what was written there last**, or what it held before. -/
theorem get?_setAll (g : Grid) (es : List Entry) (row column : String) :
    (g.setAll es).get? row column = (lastValue es row column).or (g.get? row column) := by
  induction es using List.reverseRecOn with
  | nil => rfl
  | append_singleton es e ih =>
    rw [setAll_append_singleton, get?_set, lastValue_append_singleton, Entry.valueAt?, ih]
    split <;> rfl

/-- The rows are those that were there and those that were written to. -/
theorem mem_setAll_iff : row ∈ g.setAll es ↔ row ∈ g ∨ ∃ e ∈ es, e.row = row := by
  induction es using List.reverseRecOn with
  | nil => simp [setAll]
  | append_singleton es e ih =>
    rw [setAll_append_singleton, mem_set_iff, ih]
    simp only [List.mem_append, List.mem_singleton, or_and_right, exists_or, exists_eq_left]
    rw [or_comm, or_assoc]

/-- A table of tables is known by its rows and its numbers. -/
theorem eq_of_get?_eq (hrow : ∀ row, row ∈ g ↔ row ∈ h)
    (hget : ∀ row column, g.get? row column = h.get? row column) : g = h := by
  refine Std.ExtTreeMap.ext_getElem? fun row => ?_
  have hmem := hrow row
  have hcolumns := hget row
  rw [Std.ExtTreeMap.mem_iff_isSome_getElem?, Std.ExtTreeMap.mem_iff_isSome_getElem?] at hmem
  simp only [get?] at hcolumns
  cases hg : g[row]? <;> cases hh : h[row]?
  · rfl
  · simp [hg, hh] at hmem
  · simp [hg, hh] at hmem
  · simp only [hg, hh, Option.bind_some] at hcolumns
    exact congrArg some (Std.ExtTreeMap.ext_getElem? hcolumns)

/-- **The order of the entries does not matter**, as long as the last one in each place is the
same. -/
theorem setAll_congr {es' : List Entry}
    (hlast : ∀ row column, lastValue es' row column = lastValue es row column) :
    (∅ : Grid).setAll es' = (∅ : Grid).setAll es := by
  -- the rows are told by the last values too, as every row that is written to has one
  have hrow (fs : List Entry) (row : String) :
      row ∈ (∅ : Grid).setAll fs ↔ ∃ column, (lastValue fs row column).isSome := by
    simp only [mem_setAll_iff, Std.ExtTreeMap.not_mem_empty, false_or, lastValue_isSome_iff]
    constructor
    · rintro ⟨e, he, hr⟩
      exact ⟨e.column, e, he, hr, rfl⟩
    · rintro ⟨column, e, he, hr, -⟩
      exact ⟨e, he, hr⟩
  refine eq_of_get?_eq (fun row => ?_) fun row column => ?_
  · simp only [hrow, hlast]
  · rw [get?_setAll, get?_setAll, hlast]

end Grid

/-! ### The two tables of a frame -/

namespace Write

/-- The entry of a write among the degrees, if it is one of a degree. -/
def degreeEntry? : Write → Option Entry
  | .degree name agent x => some ⟨name, agent, x⟩
  | .trust .. => none

/-- The entry of a write in the trust, if it is one of trust. -/
def trustEntry? : Write → Option Entry
  | .degree .. => none
  | .trust truster trustee x => some ⟨truster, trustee, x⟩

end Write

/-- The degrees that are written, by variable and agent. -/
def degreeEntries (ws : List Write) : List Entry := ws.filterMap Write.degreeEntry?

/-- The trust that is written, by truster and trustee. -/
def trustEntries (ws : List Write) : List Entry := ws.filterMap Write.trustEntry?

/-- The last degree that is written of a variable at an agent. -/
def lastDegree (ws : List Write) (name agent : String) : Option Degree :=
  lastValue (degreeEntries ws) name agent

/-- The last trust that is written of one agent in another. -/
def lastTrust (ws : List Write) (truster trustee : String) : Option Degree :=
  lastValue (trustEntries ws) truster trustee

theorem exists_mem_degreeEntries_iff {ws : List Write} {name : String} :
    (∃ e ∈ degreeEntries ws, e.row = name) ↔ ∃ agent x, .degree name agent x ∈ ws := by
  constructor
  · rintro ⟨e, he, rfl⟩
    obtain ⟨w | w, hw, he⟩ := List.mem_filterMap.mp he
    · obtain rfl := Option.some.inj he
      exact ⟨_, _, hw⟩
    · cases he
  · rintro ⟨agent, x, hw⟩
    exact ⟨⟨name, agent, x⟩, List.mem_filterMap.mpr ⟨_, hw, rfl⟩, rfl⟩

theorem exists_mem_trustEntries_iff {ws : List Write} {truster : String} :
    (∃ e ∈ trustEntries ws, e.row = truster) ↔ ∃ trustee x, .trust truster trustee x ∈ ws := by
  constructor
  · rintro ⟨e, he, rfl⟩
    obtain ⟨w | w, hw, he⟩ := List.mem_filterMap.mp he
    · cases he
    · obtain rfl := Option.some.inj he
      exact ⟨_, _, hw⟩
  · rintro ⟨trustee, x, hw⟩
    exact ⟨⟨truster, trustee, x⟩, List.mem_filterMap.mpr ⟨_, hw, rfl⟩, rfl⟩

namespace Frame

/-- **Two stores**: writing into a frame is writing degrees into the one table of it and trust into
the other. -/
theorem writes_eq (f : Frame) (ws : List Write) :
    f.writes ws = ⟨f.degrees.setAll (degreeEntries ws), f.trust.setAll (trustEntries ws)⟩ := by
  induction ws generalizing f with
  | nil => rfl
  | cons w ws ih =>
    rw [writes, List.foldl_cons, ← writes, ih]
    cases w <;> rfl

theorem degrees_writes (ws : List Write) :
    (empty.writes ws).degrees = (∅ : Grid).setAll (degreeEntries ws) := by
  rw [writes_eq]
  rfl

theorem trust_writes (ws : List Write) :
    (empty.writes ws).trust = (∅ : Grid).setAll (trustEntries ws) := by
  rw [writes_eq]
  rfl

theorem degree_writes (ws : List Write) (name agent : String) :
    (empty.writes ws).degree name agent = (lastDegree ws name agent).getD Degree.zero := by
  rw [degree, degrees_writes, Grid.get?_setAll, lastDegree]
  simp [Grid.get?]

theorem get?_trust_writes (ws : List Write) (truster trustee : String) :
    (empty.writes ws).trust.get? truster trustee = lastTrust ws truster trustee := by
  rw [trust_writes, Grid.get?_setAll, lastTrust]
  simp [Grid.get?]

/-- Sequences with the same last writes make the same frame. -/
theorem writes_congr {ws ws' : List Write}
    (hdegree : ∀ name agent, lastDegree ws' name agent = lastDegree ws name agent)
    (htrust : ∀ truster trustee, lastTrust ws' truster trustee = lastTrust ws truster trustee) :
    empty.writes ws' = empty.writes ws := by
  rw [writes_eq, writes_eq]
  exact congrArg₂ Frame.mk (Grid.setAll_congr hdegree) (Grid.setAll_congr htrust)

/-- **The last write counts**, in each of two stores that do not know of each other. In the frame
that comes of some writes into the empty one, the degree of a variable at an agent is the last one
written, and zero if none is. Something is said of whom an agent trusts exactly if trust of this
agent was written, and then the last trust in each of those it was written for is what is said. The
variables are those a degree of which was written. The degrees are what they would be without the
trust that is written in between, and the trust is what it would be without the degrees. Whatever
else has the same last writes is the same frame and comes to the same verdicts, in whatever order
the trusted agents are asked. -/
theorem last_write_counts (ws : List Write) :
    (∀ name agent,
      (empty.writes ws).degree name agent = (lastDegree ws name agent).getD Degree.zero) ∧
    (∀ truster, ((empty.writes ws).trusted? truster).isSome ↔
      ∃ trustee x, .trust truster trustee x ∈ ws) ∧
    (∀ truster t, (empty.writes ws).trusted? truster = some t →
      ∀ trustee, t[trustee]? = lastTrust ws truster trustee) ∧
    (∀ name, name ∈ (empty.writes ws).names ↔ ∃ agent x, .degree name agent x ∈ ws) ∧
    ((empty.writes ws).degrees
        = (empty.writes (ws.filter fun w => w.degreeEntry?.isSome)).degrees ∧
      (empty.writes ws).trust
        = (empty.writes (ws.filter fun w => w.trustEntry?.isSome)).trust) ∧
    ∀ ws' : List Write,
      (∀ name agent, lastDegree ws' name agent = lastDegree ws name agent) →
      (∀ truster trustee, lastTrust ws' truster trustee = lastTrust ws truster trustee) →
      empty.writes ws' = empty.writes ws ∧
      ∀ (o : Enumeration (empty.writes ws')) (o' : Enumeration (empty.writes ws)) (limit : Nat)
        (φ : Formula) (a : String), SameVerdict (o.evaluate limit φ a) (o'.evaluate limit φ a) := by
  refine ⟨degree_writes ws, fun truster => ?_, fun truster t ht trustee => ?_, fun name => ?_,
    ⟨?_, ?_⟩, fun ws' hdegree htrust => ?_⟩
  · rw [trusted?, trust_writes, ← Std.ExtTreeMap.mem_iff_isSome_getElem?, Grid.mem_setAll_iff,
      exists_mem_trustEntries_iff]
    simp
  · rw [← get?_trust_writes, Grid.get?, ← trusted?, ht, Option.bind_some]
  · rw [names, Std.ExtTreeMap.mem_keys, degrees_writes, Grid.mem_setAll_iff,
      exists_mem_degreeEntries_iff]
    simp
  · rw [degrees_writes, degrees_writes, degreeEntries, degreeEntries, List.filterMap_filter]
    congr 2 with w
    cases w <;> rfl
  · rw [trust_writes, trust_writes, trustEntries, trustEntries, List.filterMap_filter]
    congr 2 with w
    cases w <;> rfl
  · have hframe := writes_congr hdegree htrust
    refine ⟨hframe, fun o o' limit φ a => o.sameVerdict o' limit ?_⟩
    rw [hframe]
    exact .refl standing φ.names _ _ a

/-- Two numbers are written for one place, and a degree for a variable of the name `relation`. -/
def overwritten : List Write :=
  [.degree "p" "b" Degree.nan, .trust "a" "b" Degree.one, .degree "relation" "a" Degree.zero,
    .degree "p" "b" Degree.one]

/-- The same numbers are written last, in another order. -/
def rearranged : List Write :=
  [.degree "p" "b" Degree.one, .degree "relation" "a" Degree.zero, .trust "a" "b" Degree.nan,
    .trust "a" "b" Degree.one]

/-- The first of two degrees leaves no trace, a degree for the name `relation` is not taken for
trust, and another order of the writes makes the same frame. -/
theorem last_write_counts_overwritten :
    (empty.writes overwritten).degree "p" "b" = Degree.one ∧
    ((empty.writes overwritten).trusted? "relation").isSome = false ∧
    empty.writes rearranged = empty.writes overwritten ∧
    ∀ o : Enumeration (empty.writes rearranged),
      SameVerdict (o.evaluate 2 possibly "a")
        ((Enumeration.byName (empty.writes overwritten)).evaluate 2 possibly "a") := by
  obtain ⟨hdegree, htrusted, -, -, -, hsame⟩ := last_write_counts overwritten
  have hlastDegree (name agent : String) :
      lastDegree rearranged name agent = lastDegree overwritten name agent := by
    change [Entry.mk "relation" "a" Degree.zero, ⟨"p", "b", Degree.one⟩].findSome?
        (Entry.valueAt? name agent)
      = [Entry.mk "p" "b" Degree.one, ⟨"relation", "a", Degree.zero⟩,
        ⟨"p", "b", Degree.nan⟩].findSome? (Entry.valueAt? name agent)
    by_cases hp : "p" = name
    · subst hp
      by_cases hb : "b" = agent <;> simp [Entry.valueAt?, hb]
    · simp [List.findSome?_cons, Entry.valueAt?, hp]
  have hlastTrust (truster trustee : String) :
      lastTrust rearranged truster trustee = lastTrust overwritten truster trustee := by
    change [Entry.mk "a" "b" Degree.one, ⟨"a", "b", Degree.nan⟩].findSome?
        (Entry.valueAt? truster trustee)
      = [Entry.mk "a" "b" Degree.one].findSome? (Entry.valueAt? truster trustee)
    by_cases hab : "a" = truster ∧ "b" = trustee <;> simp [Entry.valueAt?, hab]
  obtain ⟨hframe, hverdict⟩ := hsame rearranged hlastDegree hlastTrust
  refine ⟨hdegree "p" "b", ?_, hframe, fun o => hverdict o _ 2 possibly "a"⟩
  rw [Bool.eq_false_iff, ne_eq, htrusted "relation"]
  simp [overwritten]

end Frame

end TrustLogic.Trust
