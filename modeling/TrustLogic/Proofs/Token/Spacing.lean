import TrustLogic.Proofs.Token.Layout

/-!
# Symbols under any spacing

Blanks may stand before, between and behind the symbols of a text, and they need not: symbols that
stand next to each other neither fuse nor fall apart. This file says so for texts that are put
together from symbols and blanks, places left aside.

* `TrustLogic.Spells` – a text spells some symbols if it is a layout of them wherever it starts.
  This is what can be put together piece by piece, as the place where a piece starts depends on all
  that stands before it.
* `TrustLogic.spaced` – the literals of some symbols with characters of one's choice before and
  behind each of them.

`TrustLogic.tokenize_spaced` says that reading undoes spacing, whatever blanks are chosen, and that
nothing but spaced symbols can be read. What it rests on is that the literals form a prefix code
(`TrustLogic.Token.scan?_eq_some_iff`), so the order in which they are tried does not matter, and
that no literal begins with a blank.
-/

namespace TrustLogic

/-! ### Spelling -/

/-- The text `cs` **spells** the symbols `ts`: wherever it starts, it is a layout of them. -/
def Spells (cs : List Char) (ts : List Token) : Prop :=
  ∀ p, ∃ us, Layout p cs us ∧ us.map Located.token = ts

theorem Layout.blank {p : Place} {c : Char} {cs : List Char} {ts : List Located}
    (hc : isBlank c = true) (h : Layout (p.next c) cs ts) : Layout p (c :: cs) ts := by
  cases h with
  | eof hgap =>
    have hblank : AllBlank (c :: cs) := allBlank_cons.mpr ⟨hc, hgap⟩
    exact .eof hblank
  | @cons _ gap _ _ _ hgap ht hrest =>
    have hblank : AllBlank (c :: gap) := allBlank_cons.mpr ⟨hc, hgap⟩
    exact Layout.cons hblank ht hrest

theorem spells_nil : Spells [] [.eof] :=
  fun _ => ⟨_, .eof allBlank_nil, rfl⟩

theorem Spells.blank {c : Char} {cs : List Char} {ts : List Token} (hc : isBlank c = true)
    (h : Spells cs ts) : Spells (c :: cs) ts := by
  intro p
  obtain ⟨us, hus, hts⟩ := h (p.next c)
  exact ⟨us, hus.blank hc, hts⟩

theorem Spells.blanks {gap cs : List Char} {ts : List Token} (hgap : AllBlank gap)
    (h : Spells cs ts) : Spells (gap ++ cs) ts := by
  induction gap with
  | nil => exact h
  | cons c gap ih =>
    obtain ⟨hc, hgap⟩ := allBlank_cons.mp hgap
    exact (ih hgap).blank hc

theorem Spells.written {t : Token} {cs : List Char} {ts : List Token} (ht : t.Written)
    (h : Spells cs ts) : Spells (t.literal.toList ++ cs) (t :: ts) := by
  intro p
  obtain ⟨us, hus, hts⟩ := h (p.after t.literal.toList)
  exact ⟨_, Layout.cons allBlank_nil ht hus, congrArg (t :: ·) hts⟩

/-- A text is read as the symbols that it spells. -/
theorem Spells.tokenize {cs : List Char} {ts : List Token} (h : Spells cs ts) :
    ∃ us, tokenize (String.ofList cs) = .ok us ∧ us.map Located.token = ts := by
  obtain ⟨us, hlayout, hts⟩ := h .start
  refine ⟨us, tokenize_eq_ok_iff.mpr ?_, hts⟩
  rwa [String.toList_ofList]

/-! ### Spacing -/

/-- **Symbols under some spacing**: each entry is a symbol and what stands behind it, and `front`
stands before the first symbol. -/
def spaced (front : List Char) (entries : List (Token × List Char)) : List Char :=
  front ++ entries.flatMap fun e => e.1.literal.toList ++ e.2

theorem spaced_nil (front : List Char) : spaced front [] = front := by
  simp [spaced]

theorem spaced_cons (front gap : List Char) (t : Token) (entries : List (Token × List Char)) :
    spaced front ((t, gap) :: entries) = front ++ (t.literal.toList ++ spaced gap entries) := by
  simp [spaced]

/-- **A spacing that can be read**: the symbols can be written, and what stands behind them are
blanks. -/
def WellSpaced (entries : List (Token × List Char)) : Prop :=
  ∀ e ∈ entries, e.1.Written ∧ AllBlank e.2

theorem wellSpaced_cons {e : Token × List Char} {entries : List (Token × List Char)} :
    WellSpaced (e :: entries) ↔ (e.1.Written ∧ AllBlank e.2) ∧ WellSpaced entries :=
  List.forall_mem_cons

/-- **Spaced symbols spell themselves**, whatever blanks stand where. -/
theorem spells_spaced {front : List Char} {entries : List (Token × List Char)}
    (hfront : AllBlank front) (h : WellSpaced entries) :
    Spells (spaced front entries) (entries.map Prod.fst ++ [.eof]) := by
  induction entries generalizing front with
  | nil =>
    have hblank := spells_nil.blanks hfront
    rwa [List.append_nil, ← spaced_nil front] at hblank
  | cons e entries ih =>
    obtain ⟨⟨ht, hgap⟩, hentries⟩ := wellSpaced_cons.mp h
    have hrest : Spells (spaced e.2 entries) (entries.map Prod.fst ++ [.eof]) := ih hgap hentries
    rw [spaced_cons, List.map_cons, List.cons_append]
    exact (hrest.written ht).blanks hfront

/-- **A layout is a spacing of its symbols.** The blanks that a layout has before a symbol are
those that the spacing has behind the one before. -/
theorem Layout.exists_spaced {p : Place} {cs : List Char} {ts : List Located}
    (h : Layout p cs ts) :
    ∃ front entries, AllBlank front ∧ WellSpaced entries ∧ cs = spaced front entries ∧
      ts.map Located.token = entries.map Prod.fst ++ [.eof] := by
  induction h with
  | @eof p gap hgap =>
    exact ⟨gap, [], hgap, by simp [WellSpaced], (spaced_nil gap).symm, rfl⟩
  | @cons p gap rest t ts hgap ht hrest ih =>
    obtain ⟨front, entries, hfront, hentries, rfl, hts⟩ := ih
    refine ⟨gap, (t, front) :: entries, hgap, wellSpaced_cons.mpr ⟨⟨ht, hfront⟩, hentries⟩,
      (spaced_cons gap front t entries).symm, ?_⟩
    rw [List.map_cons, hts]
    rfl

/-! ### Reading undoes spacing -/

/-- The literals of some symbols with nothing between them, as a spacing. -/
theorem ofList_spaced_nil (ts : List Token) :
    String.ofList (spaced [] (ts.map fun t => (t, []))) = String.join (ts.map Token.literal) := by
  rw [← String.toList_inj, String.toList_ofList]
  simp [spaced, List.flatMap_map]

/-- **Reading undoes spacing**, in three parts. Symbols that can be written are read from any text
in which blanks stand before, between and behind their literals, and behind them the end of the
text. They are read too where nothing separates them. Every text that can be read is such a text. -/
theorem tokenize_spaced :
    (∀ front entries, AllBlank front → WellSpaced entries →
      ∃ us, tokenize (String.ofList (spaced front entries)) = .ok us ∧
        us.map Located.token = entries.map Prod.fst ++ [.eof]) ∧
    (∀ ts : List Token, (∀ t ∈ ts, t.Written) →
      ∃ us, tokenize (String.join (ts.map Token.literal)) = .ok us ∧
        us.map Located.token = ts ++ [.eof]) ∧
    ∀ s us, tokenize s = .ok us →
      ∃ front entries, AllBlank front ∧ WellSpaced entries ∧
        s = String.ofList (spaced front entries) ∧
        us.map Located.token = entries.map Prod.fst ++ [.eof] := by
  refine ⟨fun front entries hfront h => (spells_spaced hfront h).tokenize, fun ts hts => ?_,
    fun s us hs => ?_⟩
  · have hspaced : WellSpaced (ts.map fun t => (t, [])) := by
      intro e he
      obtain ⟨t, ht, rfl⟩ := List.mem_map.mp he
      exact ⟨hts t ht, allBlank_nil⟩
    obtain ⟨us, hread, hus⟩ := (spells_spaced allBlank_nil hspaced).tokenize
    rw [ofList_spaced_nil] at hread
    refine ⟨us, hread, ?_⟩
    rw [hus, List.map_map]
    exact congrArg (· ++ [.eof]) (List.map_id ts)
  · obtain ⟨front, entries, hfront, hentries, hcs, hus⟩ :=
      (tokenize_eq_ok_iff.mp hs).exists_spaced
    exact ⟨front, entries, hfront, hentries, by rw [← hcs, String.ofList_toList], hus⟩

/-- Symbols that begin and end with the same characters, two of them with a no-break space and a
line feed between them. -/
def angles : List (Token × List Char) := [
  (.operator (.binary .coimplication), []),
  (.operator (.unary (.modal .diamond)), ['\u00a0', '\n']),
  (.operator (.binary .implication), []), (.var "é", []), (.bracket .closing, []),
  (.operator (.unary (.modal .box)), [])]

/-- The symbols are read under their spacing, and some of them also next to each other, in a text
that is a spacing of its own. -/
theorem tokenize_spaced_angles :
    String.ofList (spaced [' '] angles) = " -<<>\u00a0\n->é)[]" ∧
    (∃ us, tokenize " -<<>\u00a0\n->é)[]" = .ok us ∧
      us.map Located.token = angles.map Prod.fst ++ [.eof]) ∧
    (∃ us, tokenize "-<<>->" = .ok us ∧
      us.map Located.token = [.operator (.binary .coimplication),
        .operator (.unary (.modal .diamond)), .operator (.binary .implication), .eof]) ∧
    ∃ front entries, AllBlank front ∧ WellSpaced entries ∧
      "-<<>->" = String.ofList (spaced front entries) := by
  obtain ⟨hspaced, hjoined, hexists⟩ := tokenize_spaced
  have htext : String.ofList (spaced [' '] angles) = " -<<>\u00a0\n->é)[]" := by decide +kernel
  have hletter : Token.Written (.var "é") := .var (c := 'é') (by decide +kernel)
  have hgap : AllBlank ['\u00a0', '\n'] := by decide
  have hangles : WellSpaced angles := by
    simp [WellSpaced, angles, Token.Written.operator, Token.Written.bracket, hletter, hgap,
      allBlank_nil]
  have hread := hspaced [' '] angles (by decide) hangles
  rw [htext] at hread
  obtain ⟨us, hclose, hus⟩ := hjoined [.operator (.binary .coimplication),
    .operator (.unary (.modal .diamond)), .operator (.binary .implication)]
    (by simp [Token.Written.operator])
  obtain ⟨front, entries, hfront, hentries, hexists, -⟩ := hexists _ _ hclose
  exact ⟨htext, hread, ⟨us, hclose, hus⟩, front, entries, hfront, hentries, hexists⟩

end TrustLogic
