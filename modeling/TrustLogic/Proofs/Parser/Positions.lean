import TrustLogic.Proofs.Formula.Grammar

/-!
# Parsers and positions

A parser is told where in a list of tokens it starts, and it tells where it stops or where its fault
is. This file says that positions are all that it does with them: it looks at the tokens from its
start on and at nothing else, and the position only counts.

* **Moving the start moves the answer** (`TrustLogic.Parser.run_ahead`). What comes before the start
  can be cut off, and the positions in the answer are then smaller by its length, while the value,
  the texts of a fault and its trail are what they were.
* **No parser goes back or beyond the end** (`TrustLogic.Parser.stands_run`). Where it stops, and
  where its fault is, are places that are reached from its start by passing over tokens. Only a
  formula is sure to pass over one.

Both are laws that every way of putting parsers together keeps. For a parser that is tried and may
fail this is so because it starts over where it began; what the failed attempt passed over leaves no
trace. The reading of formulas keeps the laws as well, being made from the same steps.
-/

namespace TrustLogic

/-! ### Moving the start -/

/-- The cursor with more tokens before it. -/
def Cursor.ahead (k : Nat) (c : Cursor) : Cursor := ⟨c.pos + k, c.rest⟩

/-- The fault at a position further on by the given number. -/
def ParseError.ahead (k : Nat) : ParseError → ParseError
  | unexpectedEnd expected p trail => unexpectedEnd expected (p + k) trail
  | unexpectedToken expected found p trail => unexpectedToken expected found (p + k) trail
  | tooDeep limit p => tooDeep limit (p + k)

theorem ParseError.within_ahead (k : Nat) (label : String) (e : ParseError) :
    (e.ahead k).within label = (e.within label).ahead k := by
  cases e <;> rfl

theorem Cursor.ofTokens_eq_ahead (tokens : List Token) (pos : Nat) :
    ofTokens tokens pos = (ofTokens (tokens.drop pos) 0).ahead pos := by
  rw [ofTokens, ofTokens, ahead, Nat.zero_add, List.drop_zero]

namespace ParseResult

variable {α β : Type}

/-- The result with all its positions further on by the given number, and everything else as it
is. -/
def ahead (k : Nat) : ParseResult α → ParseResult α
  | .ok (a, c) => .ok (a, c.ahead k)
  | .error e => .error (e.ahead k)

theorem within_ahead (k : Nat) (label : String) (r : ParseResult α) :
    (r.ahead k).within label = (r.within label).ahead k := by
  rcases r with e | ⟨a, c⟩
  · exact congrArg Except.error (e.within_ahead k label)
  · rfl

theorem mapValue_ahead (k : Nat) (f : α → β) (r : ParseResult α) :
    (r.ahead k).mapValue f = (r.mapValue f).ahead k := by
  rcases r with e | ⟨a, c⟩ <;> rfl

/-- Reading on keeps step, if what is read on does. -/
theorem andThen_ahead {k : Nat} {f : α → Cursor → ParseResult β}
    (hf : ∀ a c, f a (c.ahead k) = (f a c).ahead k) (r : ParseResult α) :
    (r.ahead k).andThen f = (r.andThen f).ahead k := by
  rcases r with e | ⟨a, c⟩
  · rfl
  · exact hf a c

end ParseResult

theorem Cursor.take_ahead {α : Type} (k : Nat) (c : Cursor) (expected : String)
    (value? : Token → Option α) :
    (c.ahead k).take expected value? = (c.take expected value?).ahead k := by
  obtain ⟨pos, rest⟩ := c
  rcases rest with _ | ⟨t, rest⟩
  · rfl
  · simp only [take, ahead]
    cases value? t with
    | none => rfl
    | some a => simp [ParseResult.ahead, ahead, Nat.add_right_comm]

theorem Cursor.expect_ahead (k : Nat) (c : Cursor) (t : Token) :
    (c.ahead k).expect t = (c.expect t).ahead k :=
  c.take_ahead k _ _

theorem readFormula_ahead (limit room k : Nat) (c : Cursor) :
    readFormula limit room (c.ahead k) = (readFormula limit room c).ahead k := by
  -- the cases are the branches of the rule, in the order in which it tries them
  fun_induction readFormula limit room c with
  | case1 c => rfl
  | case2 room c hc =>
    obtain ⟨pos, rest⟩ := c
    obtain rfl : rest = [] := hc
    rfl
  | case3 room c op rest hc ih =>
    obtain ⟨pos, cs⟩ := c
    obtain rfl : cs = .operator (.unary op) :: rest := hc
    rw [← ParseResult.within_ahead, ← ParseResult.mapValue_ahead, ← ih, Cursor.ahead,
      readFormula_unary, Cursor.ahead, Nat.add_right_comm]
  | case4 room c name op rest hc ih =>
    obtain ⟨pos, cs⟩ := c
    obtain rfl : cs = .var name :: .operator (.binary op) :: rest := hc
    rw [← ParseResult.mapValue_ahead, ← ParseResult.within_ahead, ← ih, Cursor.ahead,
      readFormula_binary, Cursor.ahead, Nat.add_right_comm]
  | case5 room c name rest hne hc =>
    obtain ⟨pos, cs⟩ := c
    obtain rfl : cs = .var name :: rest := hc
    rw [Cursor.ahead, readFormula_var, ParseResult.ahead, Cursor.ahead, Nat.add_right_comm]
    intro op hop
    obtain ⟨rest', rfl⟩ := List.head?_eq_some_iff.mp hop
    exact hne op rest' rfl
  | case6 room c rest hc ih =>
    obtain ⟨pos, cs⟩ := c
    obtain rfl : cs = .bracket .opening :: rest := hc
    rw [← ParseResult.within_ahead, ← ParseResult.andThen_ahead, ← ih, Cursor.ahead,
      readFormula_opening, Cursor.ahead, Nat.add_right_comm]
    intro φ c
    rw [Cursor.expect_ahead, ParseResult.mapValue_ahead]
  | case7 room c t rest hunary hbinary hvar hopening hc =>
    obtain ⟨pos, cs⟩ := c
    obtain rfl : cs = t :: rest := hc
    rw [Cursor.ahead, readFormula_front hunary hvar hopening]
    rfl

namespace Parser

/-- **Moving the start of a parser moves its answer**, and changes nothing else. -/
theorem run_ahead {α : Type} (p : Parser α) (k : Nat) (c : Cursor) :
    p.run (c.ahead k) = (p.run c).ahead k := by
  induction p generalizing c with
  | token t => exact c.expect_ahead k t
  | satisfy expected value? => exact c.take_ahead k expected value?
  | map f p ih => rw [run, run, ih, ParseResult.mapValue_ahead]
  | ignore p ih => rw [run, run, ih, ParseResult.mapValue_ahead]
  | optional p ih =>
    rw [run, run, ih]
    rcases p.run c with e | ⟨a, c'⟩ <;> rfl
  | pair p q ihp ihq =>
    rw [run, run, ihp]
    refine ParseResult.andThen_ahead (fun a c => ?_) _
    rw [ihq, ParseResult.mapValue_ahead]
  | between left p right ihl ihp ihr =>
    rw [run, run, ihl]
    refine ParseResult.andThen_ahead (fun _ c => ?_) _
    rw [ihp]
    refine ParseResult.andThen_ahead (fun a c => ?_) _
    rw [ihr, ParseResult.mapValue_ahead]
  | named label p ih => rw [run, run, ih, ParseResult.within_ahead]
  | formula limit => exact readFormula_ahead limit limit k c

end Parser

/-! ### Passing over tokens -/

/-- **A cursor further on**: the second cursor is reached from the first one by passing over
tokens. -/
def Cursor.Passes (c c' : Cursor) : Prop :=
  ∃ ts, c.rest = ts ++ c'.rest ∧ c'.pos = c.pos + ts.length

namespace Cursor.Passes

variable {c c' c'' : Cursor}

theorem refl (c : Cursor) : c.Passes c := ⟨[], rfl, rfl⟩

theorem trans (h : c.Passes c') (h' : c'.Passes c'') : c.Passes c'' := by
  obtain ⟨ts, hrest, hpos⟩ := h
  obtain ⟨us, hrest', hpos'⟩ := h'
  refine ⟨ts ++ us, by rw [hrest, hrest', List.append_assoc], ?_⟩
  rw [hpos', hpos, List.length_append, Nat.add_assoc]

theorem tail {t : Token} {rest : List Token} (hc : c.rest = t :: rest) :
    c.Passes ⟨c.pos + 1, rest⟩ :=
  ⟨[t], hc, rfl⟩

/-- From a position in a list of tokens one gets to positions in this list, from there on and up to
its end. -/
theorem of_ofTokens {tokens : List Token} {pos : Nat} (h : (ofTokens tokens pos).Passes c) :
    c = ofTokens tokens c.pos ∧ pos ≤ c.pos ∧ c.pos ≤ max pos tokens.length := by
  obtain ⟨ts, hrest, hpos⟩ := h
  obtain ⟨stop, rest⟩ := c
  dsimp only [ofTokens] at hrest
  have hlength := congrArg List.length hrest
  rw [List.length_drop, List.length_append] at hlength
  obtain rfl : stop = pos + ts.length := hpos
  dsimp only
  refine ⟨?_, by omega, by omega⟩
  rw [ofTokens, ← List.drop_drop, hrest, List.drop_left]

end Cursor.Passes

/-- **An answer that stands ahead** of a cursor: the place where the reading stopped is reached from
it by passing over tokens, and so is the place of a fault. -/
structure ParseResult.Stands {α : Type} (c : Cursor) (r : ParseResult α) : Prop where
  /-- The reading goes on from there. -/
  passes : ∀ a c', r = .ok (a, c') → c.Passes c'
  /-- The fault is there. -/
  fault : ∀ e, r = .error e → ∃ c', c.Passes c' ∧ e.pos = c'.pos

namespace ParseResult.Stands

variable {α β : Type} {c c' : Cursor} {r : ParseResult α}

theorem ok (h : c.Passes c') (a : α) : Stands c (.ok (a, c') : ParseResult α) where
  passes _ _ h' := by
    obtain ⟨rfl, rfl⟩ := Prod.mk.inj (Except.ok.inj h')
    exact h
  fault _ h' := nomatch h'

/-- A fault at the cursor itself. -/
theorem error {e : ParseError} (h : e.pos = c.pos) : Stands c (.error e : ParseResult α) where
  passes _ _ h' := nomatch h'
  fault _ h' := by
    obtain rfl := Except.error.inj h'
    exact ⟨c, .refl c, h⟩

/-- What stands ahead of a cursor stands ahead of those before it. -/
theorem trans (hc : c.Passes c') (h : Stands c' r) : Stands c r where
  passes a c'' h' := hc.trans (h.passes a c'' h')
  fault e h' := by
    obtain ⟨c'', hpasses, hpos⟩ := h.fault e h'
    exact ⟨c'', hc.trans hpasses, hpos⟩

theorem within (h : Stands c r) (label : String) : Stands c (r.within label) := by
  rcases r with e | ⟨a, c'⟩
  · obtain ⟨c', hpasses, hpos⟩ := h.fault e rfl
    exact .trans hpasses (.error ((e.pos_within label).trans hpos))
  · exact h

theorem mapValue (h : Stands c r) (f : α → β) : Stands c (r.mapValue f) := by
  rcases r with e | ⟨a, c'⟩
  · obtain ⟨c', hpasses, hpos⟩ := h.fault e rfl
    exact .trans hpasses (.error hpos)
  · exact .ok (h.passes a c' rfl) (f a)

theorem andThen {f : α → Cursor → ParseResult β} (h : Stands c r)
    (hf : ∀ a c', Stands c' (f a c')) : Stands c (r.andThen f) := by
  rcases r with e | ⟨a, c'⟩
  · obtain ⟨c', hpasses, hpos⟩ := h.fault e rfl
    exact .trans hpasses (.error hpos)
  · exact .trans (h.passes a c' rfl) (hf a c')

end ParseResult.Stands

theorem Cursor.stands_take {α : Type} (c : Cursor) (expected : String)
    (value? : Token → Option α) : (c.take expected value?).Stands c := by
  rw [take]
  split
  · exact .error rfl
  · next t rest hc =>
    cases value? t with
    | none => exact .error rfl
    | some a => exact .ok (.tail hc) a

theorem Cursor.stands_expect (c : Cursor) (t : Token) : (c.expect t).Stands c :=
  c.stands_take _ _

theorem stands_readFormula (limit room : Nat) (c : Cursor) :
    (readFormula limit room c).Stands c := by
  fun_induction readFormula limit room c with
  | case1 c => exact .error rfl
  | case2 room c hc => exact .error rfl
  | case3 room c op rest hc ih => exact .trans (.tail hc) ((ih.mapValue _).within _)
  | case4 room c name op rest hc ih =>
    have hpasses : c.Passes ⟨c.pos + 2, rest⟩ := ⟨[.var name, .operator (.binary op)], hc, rfl⟩
    exact .trans hpasses ((ih.within _).mapValue _)
  | case5 room c name rest hne hc => exact .ok (.tail hc) _
  | case6 room c rest hc ih =>
    refine .trans (.tail hc) (.within (ih.andThen fun φ c' => ?_) _)
    exact (c'.stands_expect _).mapValue _
  | case7 room c t rest hunary hbinary hvar hopening hc => exact .error rfl

/-- A formula is made of one token at least. -/
theorem pos_lt_of_readFormula {limit room : Nat} {c c' : Cursor} {φ : Formula}
    (h : readFormula limit room c = .ok (φ, c')) : c.pos < c'.pos := by
  obtain ⟨ts, -, hpos, hts, -⟩ := derives_of_readFormula h
  have hlength := List.length_pos_iff.mpr hts.ne_nil
  omega

namespace Parser

/-- **The answer of a parser stands ahead of its start.** -/
theorem stands_run {α : Type} (p : Parser α) (c : Cursor) : (p.run c).Stands c := by
  induction p generalizing c with
  | token t => exact c.stands_expect t
  | satisfy expected value? => exact c.stands_take expected value?
  | map f p ih => exact (ih c).mapValue f
  | ignore p ih => exact (ih c).mapValue _
  | optional p ih =>
    have hp := ih c
    rw [run]
    rcases hrun : p.run c with e | ⟨a, c'⟩
    · exact .ok (.refl c) none
    · exact .ok (hp.passes a c' hrun) (some a)
  | pair p q ihp ihq => exact (ihp c).andThen fun a c' => (ihq c').mapValue _
  | between left p right ihl ihp ihr =>
    exact (ihl c).andThen fun _ c' => (ihp c').andThen fun a c'' => (ihr c'').mapValue _
  | named label p ih => exact (ih c).within label
  | formula limit => exact stands_readFormula limit limit c

/-- **Parsers and positions.** The answer of a parser at a position is its answer at the beginning of
what remains of the tokens, with the position added to where it stops or where its fault is. Where it
stops is a position in the same tokens, not before its start and not beyond the end, or its start if
that is beyond the end already; so is the position of a fault. A formula stops behind its start. A
parser that may fail never does, and stops where it started where the other one fails. -/
theorem positions_of_runAt {α : Type} (p : Parser α) (tokens : List Token) (pos : Nat) :
    p.runAt tokens pos = (p.runAt (tokens.drop pos) 0).ahead pos ∧
    (∀ a c, p.runAt tokens pos = .ok (a, c) →
      c = Cursor.ofTokens tokens c.pos ∧ pos ≤ c.pos ∧ c.pos ≤ max pos tokens.length) ∧
    (∀ e, p.runAt tokens pos = .error e → pos ≤ e.pos ∧ e.pos ≤ max pos tokens.length) ∧
    (∀ limit φ c, (formula limit).runAt tokens pos = .ok (φ, c) → pos < c.pos) ∧
    (∃ v c, (optional p).runAt tokens pos = .ok (v, c)) ∧
    ∀ e, p.runAt tokens pos = .error e →
      (optional p).runAt tokens pos = .ok (none, Cursor.ofTokens tokens pos) := by
  have hstands := p.stands_run (Cursor.ofTokens tokens pos)
  refine ⟨?_, ?_, ?_, ?_, ?_, ?_⟩
  · rw [runAt, Cursor.ofTokens_eq_ahead, run_ahead, runAt]
  · intro a c h
    exact (hstands.passes a c h).of_ofTokens
  · intro e h
    obtain ⟨c, hpasses, hpos⟩ := hstands.fault e h
    exact hpos ▸ hpasses.of_ofTokens.2
  · intro limit φ c h
    exact pos_lt_of_readFormula h
  · rw [runAt, run]
    rcases p.run (Cursor.ofTokens tokens pos) with e | ⟨a, c⟩
    · exact ⟨none, _, rfl⟩
    · exact ⟨some a, c, rfl⟩
  · intro e h
    rw [runAt, run, show p.run (Cursor.ofTokens tokens pos) = .error e from h]

/-- A formula between two ends of a text. -/
def enclosed : Parser Formula :=
  between (ignore (token .eof)) (formula 3) (ignore (token .eof))

/-- The tokens `EOF p & q EOF`, with a closing parenthesis before them. -/
def enclosing : List Token :=
  [.bracket .closing, .eof, .var "p", .operator (.binary .conjunction), .var "q", .eof]

/-- A formula between two ends, read from the second token on, stops at the end of the tokens. Read
from the first token on, or from beyond the end, it has a fault right there, and if it may fail it
stops right there. -/
theorem positions_of_runAt_enclosed :
    (enclosed.runAt enclosing 1 = (enclosed.runAt enclosing.tail 0).ahead 1 ∧
      enclosed.runAt enclosing.tail 0
        = .ok (.binary .conjunction (.var "p") (.var "q"), ⟨5, []⟩)) ∧
    (∃ e, enclosed.runAt enclosing 0 = .error e ∧ e.pos = 0) ∧
    (∃ e, enclosed.runAt enclosing 9 = .error e ∧ e.pos = 9) ∧
    (∀ c, (formula 3).runAt enclosing 2 = .ok (.binary .conjunction (.var "p") (.var "q"), c) →
      2 < c.pos ∧ c.pos ≤ 6) ∧
    (optional enclosed).runAt enclosing 9 = .ok (none, ⟨9, []⟩) := by
  obtain ⟨hmove, -⟩ := positions_of_runAt enclosed enclosing 1
  obtain ⟨-, -, hfront, -⟩ := positions_of_runAt enclosed enclosing 0
  obtain ⟨-, -, hbeyond, -, -, hoptional⟩ := positions_of_runAt enclosed enclosing 9
  obtain ⟨-, hstop, -, hformula, -⟩ := positions_of_runAt (formula 3) enclosing 2
  refine ⟨⟨hmove, rfl⟩, ⟨_, rfl, rfl⟩, ⟨_, rfl, rfl⟩, fun c hc => ?_, hoptional _ rfl⟩
  exact ⟨hformula 3 _ c hc, (hstop _ c hc).2.2⟩

end Parser

end TrustLogic
