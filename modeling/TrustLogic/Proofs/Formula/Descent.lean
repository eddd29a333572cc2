import TrustLogic.Proofs.Formula.FirstFault

/-!
# The descent

The limit on the nesting is checked level by level, on the way down, before anything is known about
the tokens to come. This file says what comes of this for every list of tokens, whether it begins
with a sentence or not: the limit cuts a reading short or it has no influence on it, and it can be
told from the tokens alone where it cuts.

* `TrustLogic.Descends` – the places where the levels of a reading open. A level opens at most one
  other, behind the tokens that it begins with, so this takes no reading.
* `TrustLogic.Opens.exists_finish` – what a level that opens another one does: it goes on with the
  answer of that level in a way that depends neither on the limit nor on how many levels are left,
  and it passes on that the limit has been met.
* `TrustLogic.exists_answer` – what any other level does: it answers at once, whatever the limit.

These two are all that can happen on a level. By induction on the levels that are left, the limit is
met exactly where the descent goes beyond it (`TrustLogic.readFormula_eq_tooDeep_iff`), and where
it does not go beyond it the limit may as well be higher (`TrustLogic.readFormula_eq_of_le`). Faults
that are found on the way back up, such as a parenthesis that is missing, do not compete with this:
they are found on levels that have been reached.
-/

namespace TrustLogic

variable {tokens lead : List Token} {label : String} {start n p : Nat}

/-! ### Levels and places -/

/-- **The descent** of a reading: `Descends tokens start n p` says that its level `n` opens at the
position `p` of the tokens. -/
inductive Descends (tokens : List Token) (start : Nat) : Nat → Nat → Prop
  /-- The first level opens where the reading starts. -/
  | start : Descends tokens start 1 start
  /-- A level that begins with tokens that open a level opens the next one behind them. -/
  | down {n i : Nat} {lead : List Token} {label : String} (h : Descends tokens start n i)
    (hlead : Opens lead label) (hi : lead <+: tokens.drop i) :
    Descends tokens start (n + 1) (i + lead.length)

namespace Descends

theorem pos (h : Descends tokens start n p) : 0 < n := by
  cases h <;> omega

theorem one_iff : Descends tokens start 1 p ↔ p = start := by
  constructor
  · intro h
    cases h with
    | start => rfl
    | down h => exact absurd h.pos (by omega)
  · rintro rfl
    exact .start

/-- The levels behind the first one are the descent from where the second one opens. -/
theorem exists_head (h : Descends tokens start n p) (hn : 1 < n) :
    ∃ k lead label, n = k + 1 ∧ Opens lead label ∧ lead <+: tokens.drop start ∧
      Descends tokens (start + lead.length) k p := by
  induction h with
  | start => omega
  | @down n i lead label h hlead hi ih =>
    rcases Nat.lt_or_ge 1 n with hn | hn
    · obtain ⟨k, lead', label', rfl, hlead', hi', h'⟩ := ih hn
      exact ⟨k + 1, lead', label', rfl, hlead', hi', .down h' hlead hi⟩
    · obtain rfl : n = 1 := Nat.le_antisymm hn h.pos
      obtain rfl := one_iff.mp h
      exact ⟨1, lead, label, rfl, hlead, hi, .start⟩

theorem cons (hlead : Opens lead label) (hi : lead <+: tokens.drop start)
    (h : Descends tokens (start + lead.length) n p) : Descends tokens start (n + 1) p := by
  induction h with
  | start => exact .down .start hlead hi
  | down _ hlead' hi' ih => exact .down ih hlead' hi'

end Descends

/-- A list begins with at most one of the tokens, or pairs of tokens, that open a level. -/
theorem Opens.unique {lead' ts : List Token} {label' : String} (h : Opens lead label)
    (h' : Opens lead' label') (hts : lead <+: ts) (hts' : lead' <+: ts) : lead = lead' := by
  obtain ⟨rest, rfl⟩ := hts
  cases h <;> cases h' <;> simp_all

/-- **Behind the tokens that open a level the descent goes on**, as the descent from there. -/
theorem descends_succ_iff (hlead : Opens lead label) (hi : lead <+: tokens.drop start) :
    Descends tokens start (n + 2) p ↔ Descends tokens (start + lead.length) (n + 1) p := by
  constructor
  · intro h
    obtain ⟨k, lead', label', hk, hlead', hi', h'⟩ := h.exists_head (by omega)
    obtain rfl : k = n + 1 := by omega
    rwa [hlead.unique hlead' hi hi']
  · exact .cons hlead hi

theorem not_descends (hopen : ¬ ∃ lead label, Opens lead label ∧ lead <+: tokens.drop start) :
    ¬ Descends tokens start (n + 2) p := by
  intro h
  obtain ⟨k, lead, label, -, hlead, hi, -⟩ := h.exists_head (by omega)
  exact hopen ⟨lead, label, hlead, hi⟩

/-! ### Results and the limit -/

namespace ParseResult

variable {α : Type} {r : ParseResult α}

/-- That the limit has been met is passed on without a trail. -/
theorem within_eq_tooDeep_iff :
    r.within label = .error (.tooDeep n p) ↔ r = .error (.tooDeep n p) := by
  rcases r with (_ | _ | _) | found <;> simp [ParseError.within]

/-- A token that is missing behind what has been read is no matter of the limit. -/
theorem andThen_expect_eq_tooDeep_iff (t : Token) :
    (r.andThen fun a c => (c.expect t).mapValue fun _ => a) = .error (.tooDeep n p) ↔
      r = .error (.tooDeep n p) := by
  rcases r with e | ⟨a, pos, _ | ⟨u, rest⟩⟩
  · simp
  · simp [Cursor.expect, Cursor.take]
  · by_cases hu : u = t <;> simp [Cursor.expect, Cursor.take, hu]

end ParseResult

/-! ### What happens on a level -/

/-- **A level that opens another one** goes on with its answer, in a way of its own that does not
depend on the limit, and that leaves the answer alone if the limit has been met. -/
theorem Opens.exists_finish (h : Opens lead label) (hi : lead <+: tokens.drop start) :
    ∃ finish : ParseResult Formula → ParseResult Formula,
      (∀ limit room, readFormula limit (room + 1) (.ofTokens tokens start)
        = finish (readFormula limit room (.ofTokens tokens (start + lead.length)))) ∧
      ∀ r n p, finish r = .error (.tooDeep n p) ↔ r = .error (.tooDeep n p) := by
  obtain ⟨rest, hrest⟩ := hi
  have hbehind : tokens.drop (start + lead.length) = rest := by
    rw [← List.drop_drop, ← hrest, List.drop_left]
  simp only [Cursor.ofTokens, ← hrest, hbehind]
  cases h with
  | unary op =>
    refine ⟨fun r => (r.mapValue (Formula.unary op)).within "unary formula",
      fun limit room => readFormula_unary limit room start op rest, fun r n p => ?_⟩
    rw [ParseResult.within_eq_tooDeep_iff, ParseResult.mapValue_eq_error_iff]
  | binary name op =>
    refine ⟨fun r => (r.within "right operand").mapValue (.binary op (.var name)),
      fun limit room => readFormula_binary limit room start name op rest, fun r n p => ?_⟩
    rw [ParseResult.mapValue_eq_error_iff, ParseResult.within_eq_tooDeep_iff]
  | bracket =>
    refine ⟨fun r => (r.andThen fun φ c =>
        (c.expect (.bracket .closing)).mapValue fun _ => φ).within "parenthesized formula",
      fun limit room => readFormula_opening limit room start rest, fun r n p => ?_⟩
    rw [ParseResult.within_eq_tooDeep_iff, ParseResult.andThen_expect_eq_tooDeep_iff]

/-- **A level that opens no other one** answers at once, and the limit has no part in the answer. -/
theorem exists_answer {ts : List Token} (hopen : ¬ ∃ lead label, Opens lead label ∧ lead <+: ts)
    (pos : Nat) :
    ∃ r, (∀ limit room, readFormula limit (room + 1) ⟨pos, ts⟩ = r) ∧
      ∀ n p, r ≠ .error (.tooDeep n p) := by
  rcases ts with _ | ⟨name | (op | op) | (_ | _) | _, rest⟩
  · exact ⟨_, fun limit room => rfl, by simp⟩
  · have hrest : ∀ op, rest.head? ≠ some (.operator (.binary op)) := by
      intro op hop
      obtain ⟨rest', rfl⟩ := List.head?_eq_some_iff.mp hop
      exact hopen ⟨_, _, .binary name op, rest', rfl⟩
    exact ⟨_, fun limit room => readFormula_var limit room pos name hrest, by simp⟩
  · exact absurd ⟨_, _, .unary op, rest, rfl⟩ hopen
  · exact ⟨_, fun limit room => rfl, by simp⟩
  · exact absurd ⟨_, _, .bracket, rest, rfl⟩ hopen
  · exact ⟨_, fun limit room => rfl, by simp⟩
  · exact ⟨_, fun limit room => rfl, by simp⟩

/-! ### Where the limit is met -/

/-- **The limit is met where the descent goes beyond the levels that are left**, and nowhere
else. -/
theorem readFormula_eq_tooDeep_iff {limit room : Nat} :
    readFormula limit room (.ofTokens tokens start) = .error (.tooDeep n p) ↔
      n = limit ∧ Descends tokens start (room + 1) p := by
  induction room generalizing start with
  | zero =>
    rw [readFormula, Except.error.injEq, ParseError.tooDeep.injEq, Descends.one_iff,
      eq_comm (a := limit), eq_comm (b := p), Cursor.ofTokens]
  | succ room ih =>
    by_cases hopen : ∃ lead label, Opens lead label ∧ lead <+: tokens.drop start
    · obtain ⟨lead, label, hlead, hi⟩ := hopen
      obtain ⟨finish, hstep, hfinish⟩ := hlead.exists_finish hi
      rw [hstep, hfinish, ih, descends_succ_iff hlead hi]
    · obtain ⟨r, hanswer, hne⟩ := exists_answer hopen start
      have hdescends := not_descends (n := room) (p := p) hopen
      rw [Cursor.ofTokens, hanswer]
      simp [hne, hdescends]

/-- **Where the descent does not go beyond the levels that are left**, it makes no difference if
there are more of them, or what limit they come from. -/
theorem readFormula_eq_of_le {limit limit' room room' : Nat} (hroom : room ≤ room')
    (h : ∀ p, ¬ Descends tokens start (room + 1) p) :
    readFormula limit' room' (.ofTokens tokens start)
      = readFormula limit room (.ofTokens tokens start) := by
  induction room generalizing room' start with
  | zero => exact absurd .start (h start)
  | succ room ih =>
    obtain ⟨room', rfl⟩ : ∃ k, room' = k + 1 := Nat.exists_eq_add_one.mpr (by omega)
    by_cases hopen : ∃ lead label, Opens lead label ∧ lead <+: tokens.drop start
    · obtain ⟨lead, label, hlead, hi⟩ := hopen
      obtain ⟨finish, hstep, -⟩ := hlead.exists_finish hi
      have hinner : ∀ p, ¬ Descends tokens (start + lead.length) (room + 1) p := by
        intro p hp
        exact h p ((descends_succ_iff hlead hi).mpr hp)
      rw [hstep, hstep, ih (Nat.le_of_succ_le_succ hroom) hinner]
    · obtain ⟨r, hanswer, -⟩ := exists_answer hopen start
      rw [Cursor.ofTokens, hanswer, hanswer]

/-- **The limit cuts or has no influence**, for every list of tokens and every start, in three
parts. A formula, with the end of the text after it or without, is refused for its depth exactly if
the descent opens one level more than the limit admits, and the fault is reported where this level
opens. If it does not open this level, the answer is the same under every higher limit, be it a tree
or a fault with its place, what was expected there and its trail. Under the limit 0 the fault is at
the start. -/
theorem limit_cuts_descent (tokens : List Token) (start limit : Nat) :
    (∀ n p,
      ((Parser.formula limit).runAt tokens start = .error (.tooDeep n p) ↔
        n = limit ∧ Descends tokens start (limit + 1) p) ∧
      ((Parser.wholeFormula limit).runAt tokens start = .error (.tooDeep n p) ↔
        n = limit ∧ Descends tokens start (limit + 1) p)) ∧
    ((∀ p, ¬ Descends tokens start (limit + 1) p) → ∀ limit', limit ≤ limit' →
      (Parser.formula limit').runAt tokens start = (Parser.formula limit).runAt tokens start ∧
      (Parser.wholeFormula limit').runAt tokens start
        = (Parser.wholeFormula limit).runAt tokens start) ∧
    (Parser.formula 0).runAt tokens start = .error (.tooDeep 0 start) ∧
      (Parser.wholeFormula 0).runAt tokens start = .error (.tooDeep 0 start) := by
  refine ⟨fun n p => ⟨readFormula_eq_tooDeep_iff, ?_⟩, fun h limit' hle => ?_, rfl, rfl⟩
  · rw [Parser.runAt, Parser.run_wholeFormula, ParseResult.within_eq_tooDeep_iff,
      ParseResult.andThen_expect_eq_tooDeep_iff, readFormula_eq_tooDeep_iff]
  · have hread : readFormula limit' limit' (.ofTokens tokens start)
        = readFormula limit limit (.ofTokens tokens start) := readFormula_eq_of_le hle h
    refine ⟨hread, ?_⟩
    rw [Parser.runAt, Parser.runAt, Parser.run_wholeFormula, Parser.run_wholeFormula, hread]

/-- The symbols of `~(p & (&`, which no formula begins with. -/
def openEnded : List Token :=
  [.operator (.unary .negation), .bracket .opening, .var "p", .operator (.binary .conjunction),
    .bracket .opening, .operator (.binary .conjunction)]

/-- The fourth level opens behind the first conjunction, and a limit of three levels cuts there. The
descent ends on the fifth level, at the second conjunction, and this is what every limit from five
levels on reports. -/
theorem limit_cuts_descent_openEnded :
    (Parser.wholeFormula 3).runAt openEnded 0 = .error (.tooDeep 3 4) ∧
    (∀ p, ¬ Descends openEnded 0 6 p) ∧
    ∀ limit, 5 ≤ limit → (Parser.wholeFormula limit).runAt openEnded 0
      = .error (.unexpectedToken "variable, '~', '[]', '<>' or '('"
          (.operator (.binary .conjunction)) 5
          ["parenthesized formula", "right operand", "parenthesized formula", "unary formula",
            "formula"]) := by
  obtain ⟨hcut, -⟩ := limit_cuts_descent openEnded 0 3
  have hfourth : Descends openEnded 0 4 4 :=
    .down (.down (.down .start (.unary .negation) ⟨_, rfl⟩) .bracket ⟨_, rfl⟩)
      (.binary "p" .conjunction) ⟨_, rfl⟩
  obtain ⟨hmet, hfree, -⟩ := limit_cuts_descent openEnded 0 5
  have hend : ∀ p, ¬ Descends openEnded 0 6 p := by
    intro p hp
    exact absurd ((hmet 5 p).1.mpr ⟨rfl, hp⟩) nofun
  exact ⟨(hcut 3 4).2.mpr ⟨rfl, hfourth⟩, hend, fun limit hlimit => (hfree hend limit hlimit).2⟩

end TrustLogic
