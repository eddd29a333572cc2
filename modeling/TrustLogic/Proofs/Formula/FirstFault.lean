import TrustLogic.Proofs.Formula.Grammar

/-!
# The first fault

Reading a formula never goes back, so a fault is reported at the token at which it is met. This file
says that this token is the right one to blame. The tokens before it are the beginning of some
formula, and with this token they are not the beginning of any; so no reader could have found the
fault earlier, and none could have read on.

* `TrustLogic.Viable` – the beginnings of formulas with the end of the text after them.
* `TrustLogic.Opens` – the tokens that open a level, each under the name that faults on this level
  are reported with. Whatever goes wrong on a level goes wrong on the level around it
  (`TrustLogic.Opens.readFormula_eq_error`).
* `TrustLogic.Faults` – how faults come about, level by level; what is true of all faults is proved
  by induction on this.
* `TrustLogic.StuckAt`, `TrustLogic.CutAt` – the two kinds of faults: a token that cannot stand
  where it stands, and a level too many. The first is found under every limit that admits what has
  been read, which is what tells it from the second. By `TrustLogic.Faults.faultIn` there are
  no other kinds.
* `TrustLogic.FirstFault` – what is true of the fault that a whole text is refused for, of either
  kind (`TrustLogic.exists_firstFault`).

That no formula begins with the tokens up to the fault is not proved by going through the grammar.
A formula that did would be read under a limit that is high enough, and there the fault is found all
the same (`TrustLogic.not_viable_of_error`).
-/

namespace TrustLogic

/-- **A viable beginning**: the tokens that some formula begins with, when it has the end of the
text after it. -/
def Viable (ts : List Token) : Prop :=
  ∃ us φ, Derives us φ ∧ ts <+: us ++ [.eof]

theorem Derives.eof_notMem {ts : List Token} {φ : Formula} (h : Derives ts φ) : .eof ∉ ts := by
  induction h with
  | unary op _ ih => simpa using ih
  | var name => simp
  | binary name op _ ih => simpa using ih
  | between _ ih => simpa using ih

/-! ### Levels that are opened -/

/-- **The tokens that open a level**, and the name of the rule that is read on it. -/
inductive Opens : List Token → String → Prop
  /-- A unary operator opens a level for its operand. -/
  | unary (op : Unary) : Opens [.operator (.unary op)] "unary formula"
  /-- A binary operator behind a variable opens a level for its right operand. -/
  | binary (name : String) (op : Binary) :
    Opens [.var name, .operator (.binary op)] "right operand"
  /-- A parenthesis opens a level for what it encloses. -/
  | bracket : Opens [.bracket .opening] "parenthesized formula"

namespace Opens

variable {lead : List Token} {label : String}

theorem eof_notMem (h : Opens lead label) : .eof ∉ lead := by
  cases h <;> simp

/-- **A fault on a level is one on the level around it.** -/
theorem readFormula_eq_error (h : Opens lead label) {limit room pos : Nat} {rest : List Token}
    {e : ParseError} (he : readFormula limit room ⟨pos + lead.length, rest⟩ = .error e) :
    readFormula limit (room + 1) ⟨pos, lead ++ rest⟩ = .error (e.within label) := by
  cases h with
  | unary op =>
    change readFormula limit (room + 1) ⟨pos, .operator (.unary op) :: rest⟩ = _
    rw [readFormula_unary, show readFormula limit room ⟨pos + 1, rest⟩ = .error e from he]
    rfl
  | binary name op =>
    change readFormula limit (room + 1) ⟨pos, .var name :: .operator (.binary op) :: rest⟩ = _
    rw [readFormula_binary, show readFormula limit room ⟨pos + 2, rest⟩ = .error e from he]
    rfl
  | bracket =>
    change readFormula limit (room + 1) ⟨pos, .bracket .opening :: rest⟩ = _
    rw [readFormula_opening, show readFormula limit room ⟨pos + 1, rest⟩ = .error e from he]
    rfl

/-- What begins a sentence begins one behind the tokens that open a level. -/
theorem exists_derives (h : Opens lead label) {ts : List Token} {φ : Formula}
    (hts : Derives ts φ) : ∃ rest ψ, Derives (lead ++ (ts ++ rest)) ψ := by
  cases h with
  | unary op => exact ⟨[], _, by simpa using .unary op hts⟩
  | binary name op => exact ⟨[], _, by simpa using .binary name op hts⟩
  | bracket => exact ⟨[.bracket .closing], φ, .between hts⟩

end Opens

/-! ### How faults come about -/

theorem ParseResult.within_eq_error_iff {α : Type} {label : String} {r : ParseResult α}
    {e : ParseError} : r.within label = .error e ↔ ∃ e', r = .error e' ∧ e = e'.within label := by
  rcases r with e' | found
  · simp [eq_comm]
  · simp

theorem ParseResult.mapValue_eq_error_iff {α β : Type} {f : α → β} {r : ParseResult α}
    {e : ParseError} : r.mapValue f = .error e ↔ r = .error e := by
  rcases r with e' | ⟨a, c⟩ <;> simp

/-- **How faults come about**: the levels are used up, no sentence begins with what comes next, the
fault is one on the next level, or a closing parenthesis is missing behind a sentence. -/
inductive Faults (limit : Nat) : Nat → Nat → List Token → ParseError → Prop
  /-- No level is left. -/
  | deep {pos : Nat} {cs : List Token} : Faults limit 0 pos cs (.tooDeep limit pos)
  /-- Nothing comes next. -/
  | ended {room pos : Nat} : Faults limit (room + 1) pos [] (.unexpectedEnd "formula" pos [])
  /-- The next token begins no sentence. -/
  | front {room pos : Nat} {t : Token} {cs : List Token}
    (hunary : ∀ op, t ≠ .operator (.unary op)) (hvar : ∀ name, t ≠ .var name)
    (hopening : t ≠ .bracket .opening) :
    Faults limit (room + 1) pos (t :: cs)
      (.unexpectedToken "variable, '~', '[]', '<>' or '('" t pos [])
  /-- The next level ends with a fault. -/
  | level {room pos : Nat} {lead cs : List Token} {label : String} {e : ParseError}
    (hlead : Opens lead label) (h : Faults limit room (pos + lead.length) cs e) :
    Faults limit (room + 1) pos (lead ++ cs) (e.within label)
  /-- The parenthesis behind a sentence is not closed. -/
  | closing {room pos : Nat} {ts after : List Token} {φ : Formula} {e : ParseError}
    (hφ : Derives ts φ) (hlevels : levels ts ≤ room) (hstop : Stops ts after)
    (h : (⟨pos + 1 + ts.length, after⟩ : Cursor).expect (.bracket .closing) = .error e) :
    Faults limit (room + 1) pos (.bracket .opening :: (ts ++ after))
      (e.within "parenthesized formula")

theorem faults_of_readFormula {limit room : Nat} {c : Cursor} {e : ParseError}
    (h : readFormula limit room c = .error e) : Faults limit room c.pos c.rest e := by
  -- the cases are the branches of the rule, in the order in which it tries them
  fun_induction readFormula limit room c generalizing e with
  | case1 c =>
    obtain rfl := Except.error.inj h
    exact .deep
  | case2 room c hc =>
    obtain rfl := Except.error.inj h
    rw [hc]
    exact .ended
  | case3 room c op rest hc ih =>
    obtain ⟨e', he', rfl⟩ := ParseResult.within_eq_error_iff.mp h
    rw [hc]
    exact .level (.unary op) (ih (ParseResult.mapValue_eq_error_iff.mp he'))
  | case4 room c name op rest hc ih =>
    obtain ⟨e', he', rfl⟩ :=
      ParseResult.within_eq_error_iff.mp (ParseResult.mapValue_eq_error_iff.mp h)
    rw [hc]
    exact .level (.binary name op) (ih he')
  | case5 room c name rest hne hc => cases h
  | case6 room c rest hc ih =>
    obtain ⟨e', he', rfl⟩ := ParseResult.within_eq_error_iff.mp h
    rw [hc]
    rcases hread : readFormula limit room ⟨c.pos + 1, rest⟩ with e'' | ⟨φ, stop, after⟩
    · rw [hread] at he'
      obtain rfl := Except.error.inj he'
      exact .level .bracket (ih hread)
    · -- what is enclosed is a sentence, and the fault is at what comes behind it
      obtain ⟨ts, hts, hpos, hφ, hlevels, hstop⟩ := derives_of_readFormula hread
      dsimp only at hts hpos hstop
      rw [hread, ParseResult.andThen_ok, ParseResult.mapValue_eq_error_iff, hpos] at he'
      rw [hts]
      exact .closing hφ hlevels hstop he'
  | case7 room c t rest hunary _ hvar hopening hc =>
    obtain rfl := Except.error.inj h
    rw [hc]
    exact .front hunary hvar hopening

/-- A fault that comes about is the answer. -/
theorem Faults.readFormula_eq {limit room pos : Nat} {cs : List Token} {e : ParseError}
    (h : Faults limit room pos cs e) : readFormula limit room ⟨pos, cs⟩ = .error e := by
  induction h with
  | deep => rfl
  | ended => rfl
  | @front room pos t cs hunary hvar hopening =>
    exact readFormula_front hunary hvar hopening limit room pos cs
  | level hlead _ ih => exact hlead.readFormula_eq_error ih
  | @closing room pos ts after φ e hφ hlevels hstop he =>
    rw [readFormula_opening, readFormula_of_derives hφ limit (pos + 1) after hlevels hstop,
      ParseResult.andThen_ok, he]
    rfl

/-! ### Two kinds of faults -/

/-- **A token that cannot stand where it stands.** Behind the tokens `before`, which some sentence
begins with, the reading meets `t` and stops with the fault `e`. It does so whatever comes after `t`
and under every limit that leaves it as many levels as this one. -/
structure StuckAt (room pos : Nat) (before : List Token) (t : Token) (e : ParseError) : Prop where
  fault : ∃ expected trail, e = .unexpectedToken expected t (pos + before.length) trail
  begins : ∃ rest φ, Derives (before ++ rest) φ
  answer : ∀ (limit room' : Nat) (after : List Token), room ≤ room' →
    readFormula limit room' ⟨pos, before ++ t :: after⟩ = .error e

/-- **A level too many**: behind the tokens `before` the last level is used up, whatever comes
next. -/
structure CutAt (limit room pos : Nat) (before : List Token) (e : ParseError) : Prop where
  fault : e = .tooDeep limit (pos + before.length)
  answer : ∀ rest, readFormula limit room ⟨pos, before ++ rest⟩ = .error e

section Lift

variable {lead before : List Token} {label : String} {limit room pos : Nat} {t : Token}
  {e : ParseError}

theorem StuckAt.lift (h : StuckAt room (pos + lead.length) before t e) (hlead : Opens lead label) :
    StuckAt (room + 1) pos (lead ++ before) t (e.within label) where
  fault := by
    obtain ⟨expected, trail, rfl⟩ := h.fault
    exact ⟨expected, trail ++ [label], by simp [ParseError.within, Nat.add_assoc]⟩
  begins := by
    obtain ⟨rest, φ, hφ⟩ := h.begins
    obtain ⟨rest', ψ, hψ⟩ := hlead.exists_derives hφ
    exact ⟨rest ++ rest', ψ, by simpa using hψ⟩
  answer := by
    rintro limit (_ | room') after hroom
    · omega
    · rw [List.append_assoc]
      exact hlead.readFormula_eq_error (h.answer limit room' after (by omega))

theorem CutAt.lift (h : CutAt limit room (pos + lead.length) before e) (hlead : Opens lead label) :
    CutAt limit (room + 1) pos (lead ++ before) (e.within label) where
  fault := by
    rw [h.fault, List.length_append, ParseError.within, Nat.add_assoc]
  answer := by
    intro rest
    rw [List.append_assoc]
    exact hlead.readFormula_eq_error (h.answer rest)

end Lift

theorem Cursor.expect_cons_of_ne {t u : Token} (h : u ≠ t) (pos : Nat) (rest : List Token) :
    (⟨pos, u :: rest⟩ : Cursor).expect t = .error (.unexpectedToken t.text u pos []) := by
  simp [expect, take, h]

theorem stuckAt_front {t : Token} (hunary : ∀ op, t ≠ .operator (.unary op))
    (hvar : ∀ name, t ≠ .var name) (hopening : t ≠ .bracket .opening) (room pos : Nat) :
    StuckAt (room + 1) pos [] t
      (.unexpectedToken "variable, '~', '[]', '<>' or '('" t pos []) where
  fault := ⟨_, _, rfl⟩
  begins := ⟨[.var "p"], .var "p", .var "p"⟩
  answer := by
    rintro limit (_ | room') after hroom
    · omega
    · exact readFormula_front hunary hvar hopening limit room' pos after

/-- A sentence behind an opening parenthesis cannot be followed by anything but a closing one or,
where it may go on, a binary operator. -/
theorem stuckAt_closing {ts after : List Token} {φ : Formula} (hts : Derives ts φ) {t : Token}
    (hstop : Stops ts (t :: after)) (ht : t ≠ .bracket .closing) {room : Nat}
    (hroom : levels ts ≤ room) (pos : Nat) :
    StuckAt (room + 1) pos (.bracket .opening :: ts) t
      (.unexpectedToken (Token.text (.bracket .closing)) t (pos + 1 + ts.length)
        ["parenthesized formula"]) where
  fault := ⟨_, _, by rw [List.length_cons]; congr 1; omega⟩
  begins := ⟨[.bracket .closing], φ, .between hts⟩
  answer := by
    rintro limit (_ | room') after hle
    · omega
    · have hlevels : levels ts ≤ room' := by omega
      have hread := readFormula_of_derives hts limit (pos + 1) (t :: after) hlevels hstop
      rw [List.cons_append, readFormula_opening, hread, ParseResult.andThen_ok,
        Cursor.expect_cons_of_ne ht]
      rfl

/-- **A fault of one of the two kinds** among the tokens `cs`. -/
def FaultIn (limit room pos : Nat) (cs : List Token) (e : ParseError) : Prop :=
  ∃ before t after, cs = before ++ t :: after ∧
    (StuckAt room pos before t e ∨ CutAt limit room pos before e)

theorem FaultIn.lift {lead : List Token} {label : String} {limit room pos : Nat} {cs : List Token}
    {e : ParseError} (h : FaultIn limit room (pos + lead.length) cs e) (hlead : Opens lead label) :
    FaultIn limit (room + 1) pos (lead ++ cs) (e.within label) := by
  obtain ⟨before, t, after, rfl, hfault⟩ := h
  refine ⟨lead ++ before, t, after, (List.append_assoc ..).symm, ?_⟩
  exact hfault.imp (·.lift hlead) (·.lift hlead)

/-- **Every fault is of one of the two kinds**, where the end of the text is among the tokens. -/
theorem Faults.faultIn {limit room pos : Nat} {cs : List Token} {e : ParseError}
    (h : Faults limit room pos cs e) (heof : .eof ∈ cs) : FaultIn limit room pos cs e := by
  induction h with
  | deep =>
    obtain ⟨t, after, rfl⟩ := List.exists_cons_of_ne_nil (List.ne_nil_of_mem heof)
    exact ⟨[], t, after, rfl, .inr ⟨rfl, fun rest => rfl⟩⟩
  | ended => simp at heof
  | @front room pos t cs hunary hvar hopening =>
    exact ⟨[], t, cs, rfl, .inl (stuckAt_front hunary hvar hopening room pos)⟩
  | level hlead _ ih =>
    have hcs := (List.mem_append.mp heof).resolve_left hlead.eof_notMem
    exact (ih hcs).lift hlead
  | @closing room pos ts after φ e hφ hlevels hstop he =>
    obtain ⟨t, after, rfl⟩ : ∃ t after', after = t :: after' := by
      refine List.exists_cons_of_ne_nil (List.ne_nil_of_mem (a := .eof) ?_)
      exact ((List.mem_append.mp (List.mem_of_ne_of_mem (by simp) heof)).resolve_left
        hφ.eof_notMem)
    have ht : t ≠ .bracket .closing := by
      rintro rfl
      simp [Cursor.expect_cons] at he
    rw [Cursor.expect_cons_of_ne ht] at he
    obtain rfl := Except.error.inj he
    exact ⟨.bracket .opening :: ts, t, after, rfl,
      .inl (stuckAt_closing hφ hstop ht hlevels pos)⟩

/-! ### Whole formulas -/

namespace Parser

theorem run_wholeFormula_of_error {limit : Nat} {c : Cursor} {e : ParseError}
    (h : readFormula limit limit c = .error e) :
    (wholeFormula limit).run c = .error (e.within "formula") := by
  rw [run_wholeFormula, h]
  rfl

theorem run_wholeFormula_of_derives {ts : List Token} {φ : Formula} (h : Derives ts φ)
    {limit : Nat} (hlimit : levels ts ≤ limit) {rest : List Token} (hstop : Stops ts rest)
    (pos : Nat) :
    (wholeFormula limit).run ⟨pos, ts ++ rest⟩ =
      (((⟨pos + ts.length, rest⟩ : Cursor).expect .eof).mapValue fun _ => φ).within "formula" := by
  rw [run_wholeFormula, readFormula_of_derives h limit pos rest hlimit hstop,
    ParseResult.andThen_ok]

end Parser

/-- **What is refused under every high limit is no viable beginning.** A formula that began with it
would be read under the limit that admits its levels. -/
theorem not_viable_of_error (limit : Nat) {ts : List Token}
    (h : ∀ (limit' : Nat) (rest : List Token), limit ≤ limit' →
      ∃ e, (Parser.wholeFormula limit').run ⟨0, ts ++ rest⟩ = .error e) : ¬ Viable ts := by
  rintro ⟨us, φ, hφ, rest, hrest⟩
  obtain ⟨e, he⟩ := h (max limit (levels us)) rest (Nat.le_max_left ..)
  rw [hrest, Parser.run_wholeFormula_of_derives hφ (Nat.le_max_right ..) (Or.inr (by simp)),
    Cursor.expect_cons] at he
  simp at he

/-- **The first fault of a whole formula.** Behind the tokens `before` the token `t` is met, and
whatever comes after it the answer is the fault `e`: either the levels are used up, or a viable
beginning ends here. -/
structure FirstFault (limit : Nat) (before : List Token) (t : Token) (e : ParseError) : Prop where
  answer : ∀ rest, (Parser.wholeFormula limit).run ⟨0, before ++ t :: rest⟩ = .error e
  kind : e = .tooDeep limit before.length ∨
    (∃ expected trail, e = .unexpectedToken expected t before.length trail) ∧
      Viable before ∧ ¬ Viable (before ++ [t])

namespace FirstFault

variable {limit : Nat} {before : List Token} {t : Token} {e : ParseError}

theorem pos_eq (h : FirstFault limit before t e) : e.pos = before.length := by
  rcases h.kind with rfl | ⟨⟨expected, trail, rfl⟩, -⟩
  · rfl
  · rfl

/-- An unexpected token behind a viable beginning, if no higher limit changes the answer. -/
theorem of_unexpectedToken {expected : String} {trail : List String} (hbefore : Viable before)
    (hrun : ∀ (limit' : Nat) (rest : List Token), limit ≤ limit' →
      (Parser.wholeFormula limit').run ⟨0, before ++ t :: rest⟩
        = .error (.unexpectedToken expected t before.length trail)) :
    FirstFault limit before t (.unexpectedToken expected t before.length trail) where
  answer := fun rest => hrun limit rest (Nat.le_refl _)
  kind := by
    refine .inr ⟨⟨expected, trail, rfl⟩, hbefore, not_viable_of_error limit ?_⟩
    intro limit' rest hle
    rw [List.append_assoc]
    exact ⟨_, hrun limit' rest hle⟩

theorem of_stuckAt (h : StuckAt limit 0 before t e) :
    FirstFault limit before t (e.within "formula") := by
  obtain ⟨expected, trail, rfl⟩ := h.fault
  obtain ⟨us, φ, hφ⟩ := h.begins
  have hbefore : Viable before := ⟨before ++ us, φ, hφ, us ++ [.eof], by simp⟩
  have hanswer := h.answer
  simp only [Nat.zero_add] at hanswer ⊢
  exact of_unexpectedToken hbefore fun limit' rest hle =>
    Parser.run_wholeFormula_of_error (hanswer limit' limit' rest hle)

theorem of_cutAt (h : CutAt limit limit 0 before e) (t : Token) :
    FirstFault limit before t (e.within "formula") where
  answer := fun rest => Parser.run_wholeFormula_of_error (h.answer (t :: rest))
  kind := .inl (by rw [h.fault, ParseError.within, Nat.zero_add])

/-- A whole sentence that does not end the text. -/
theorem of_derives {φ : Formula} {after : List Token} (h : Derives before φ)
    (hlimit : levels before ≤ limit) (hstop : Stops before (t :: after)) (ht : t ≠ .eof) :
    FirstFault limit before t
      (.unexpectedToken (Token.text .eof) t before.length ["formula"]) := by
  refine of_unexpectedToken ⟨before, φ, h, List.prefix_append ..⟩ fun limit' rest hle => ?_
  -- where a sentence may stop depends on the next token only
  have hstop' : Stops before (t :: rest) := hstop
  rw [Parser.run_wholeFormula_of_derives h (Nat.le_trans hlimit hle) hstop', Nat.zero_add,
    Cursor.expect_cons_of_ne ht]
  rfl

end FirstFault

/-- **Every whole formula that is refused has a first fault**, if the end of the text is among its
tokens. -/
theorem exists_firstFault {limit : Nat} {cs : List Token} {e : ParseError}
    (h : (Parser.wholeFormula limit).run ⟨0, cs⟩ = .error e) (heof : .eof ∈ cs) :
    ∃ before t after, cs = before ++ t :: after ∧ FirstFault limit before t e := by
  rcases hread : readFormula limit limit ⟨0, cs⟩ with e' | ⟨φ, stop, rest⟩
  · rw [Parser.run_wholeFormula_of_error hread] at h
    obtain rfl := Except.error.inj h
    obtain ⟨before, t, after, rfl, hstuck | hcut⟩ := (faults_of_readFormula hread).faultIn heof
    · exact ⟨before, t, after, rfl, .of_stuckAt hstuck⟩
    · exact ⟨before, t, after, rfl, .of_cutAt hcut t⟩
  · obtain ⟨ts, hts, -, hφ, hlevels, hstop⟩ := derives_of_readFormula hread
    dsimp only at hts hstop
    subst hts
    obtain ⟨t, after, rfl⟩ : ∃ t after, rest = t :: after := by
      refine List.exists_cons_of_ne_nil (List.ne_nil_of_mem (a := .eof) ?_)
      exact (List.mem_append.mp heof).resolve_left hφ.eof_notMem
    have ht : t ≠ .eof := by
      rintro rfl
      rw [Parser.run_wholeFormula_of_derives hφ hlevels hstop, Cursor.expect_cons] at h
      simp at h
    have hfault := FirstFault.of_derives hφ hlevels hstop ht
    rw [hfault.answer after] at h
    obtain rfl := Except.error.inj h
    exact ⟨ts, t, after, rfl, hfault⟩

/-! ### Texts -/

/-- A text whose symbols can be told apart is refused for their order only. -/
theorem ofText_eq_error_iff {limit : Nat} {s : String} {ts : List Located} {err : Error}
    (hs : tokenize s = .ok ts) :
    Formula.ofText limit s = .error err ↔
      ∃ e, (Parser.wholeFormula limit).runAt (ts.map Located.token) 0 = .error e ∧
        err = .parse e (spanAt ts e.pos) := by
  simp only [Formula.ofText, hs]
  rcases (Parser.wholeFormula limit).runAt (ts.map Located.token) 0 with e | ⟨φ, c⟩
  · simp [eq_comm]
  · simp

theorem spanAt_of_getElem? {ts : List Located} {pos : Nat} {t : Located} (h : ts[pos]? = some t) :
    spanAt ts pos = t.span := by
  simp [spanAt, h]

/-- The end of a text is among its symbols. -/
theorem eof_mem_of_tokenize {s : String} {ts : List Located} (hs : tokenize s = .ok ts) :
    .eof ∈ ts.map Located.token := by
  obtain ⟨init, rfl, -⟩ := (tokenize_eq_ok_iff.mp hs).eq_append_eof
  simp

/-- **A fault is reported where it is.** A text whose symbols can be told apart is refused at one of
its symbols, and the stretch that is reported is the one where this symbol stands. Either the levels
are used up there, or the symbol is not the expected one; then the symbols before it begin a formula
with the end of the text after it, and with this symbol they begin none. Whatever symbols come after
it, the answer is the same, and so it is for every text that has the same symbols up to there. -/
theorem ofText_error_at_symbol {limit : Nat} {s : String} {ts : List Located} {err : Error}
    (hs : tokenize s = .ok ts) (h : Formula.ofText limit s = .error err) :
    ∃ e t, err = .parse e t.span ∧ ts[e.pos]? = some t ∧
      (e = .tooDeep limit e.pos ∨
        (∃ expected trail, e = .unexpectedToken expected t.token e.pos trail) ∧
          Viable ((ts.map Located.token).take e.pos) ∧
          ¬ Viable ((ts.map Located.token).take (e.pos + 1))) ∧
      (∀ rest, (Parser.wholeFormula limit).runAt
        ((ts.map Located.token).take (e.pos + 1) ++ rest) 0 = .error e) ∧
      ∀ s' ts', tokenize s' = .ok ts' → ts'.take (e.pos + 1) = ts.take (e.pos + 1) →
        Formula.ofText limit s' = .error err := by
  obtain ⟨e, hrun, rfl⟩ := (ofText_eq_error_iff hs).mp h
  obtain ⟨before, t, after, hts, hfault⟩ := exists_firstFault hrun (eof_mem_of_tokenize hs)
  rw [List.drop_zero] at hts
  have hbefore : (ts.map Located.token).take e.pos = before := by
    rw [hts, hfault.pos_eq, List.take_left]
  have hupto : (ts.map Located.token).take (e.pos + 1) = before ++ [t] := by
    rw [hts, hfault.pos_eq, List.take_length_add_append, List.take_succ_cons, List.take_zero]
  have hanswer : ∀ rest, (Parser.wholeFormula limit).runAt
      ((ts.map Located.token).take (e.pos + 1) ++ rest) 0 = .error e := by
    intro rest
    rw [hupto, List.append_assoc]
    exact hfault.answer rest
  obtain ⟨u, hu, rfl⟩ : ∃ u, ts[e.pos]? = some u ∧ u.token = t := by
    have hget : (ts.map Located.token)[e.pos]? = some t := by
      rw [hts, hfault.pos_eq, List.getElem?_append_right (Nat.le_refl _), Nat.sub_self,
        List.getElem?_cons_zero]
    rwa [List.getElem?_map, Option.map_eq_some_iff] at hget
  refine ⟨e, u, by rw [spanAt_of_getElem? hu], hu, ?_, hanswer, fun s' ts' hs' htake => ?_⟩
  · rw [hbefore, hupto, hfault.pos_eq]
    exact hfault.kind
  · have hu' : ts'[e.pos]? = some u := by
      rw [← List.getElem?_take_of_lt (Nat.lt_succ_self e.pos), htake,
        List.getElem?_take_of_lt (Nat.lt_succ_self e.pos), hu]
    refine (ofText_eq_error_iff hs').mpr ⟨e, ?_, ?_⟩
    · -- the symbols of the other text go on as they like behind the fault
      have hsplit : ts'.map Located.token = (ts.map Located.token).take (e.pos + 1)
          ++ (ts'.drop (e.pos + 1)).map Located.token := by
        rw [← List.map_take, ← htake, ← List.map_append, List.take_append_drop]
      rw [hsplit]
      exact hanswer _
    · rw [spanAt_of_getElem? hu, spanAt_of_getElem? hu']

/-- The symbols of `(p) & q`. -/
def parenthesizedLeft : List Located :=
  [⟨.bracket .opening, 0, 1, 1, 1⟩, ⟨.var "p", 1, 2, 1, 2⟩, ⟨.bracket .closing, 2, 3, 1, 3⟩,
    ⟨.operator (.binary .conjunction), 4, 5, 1, 5⟩, ⟨.var "q", 6, 7, 1, 7⟩, ⟨.eof, 7, 7, 1, 8⟩]

/-- In `(p) & q` the conjunction cannot follow the parenthesis: some formula begins with `(p)` and
none with `(p) &`. Nor can anything else that comes after the conjunction make it right. -/
theorem ofText_error_at_symbol_conjunction :
    tokenize "(p) & q" = .ok parenthesizedLeft ∧
    Formula.ofText 4 "(p) & q" = .error (.parse
      (.unexpectedToken "EOF" (.operator (.binary .conjunction)) 3 ["formula"]) ⟨4, 5, 1, 5⟩) ∧
    Viable [.bracket .opening, .var "p", .bracket .closing] ∧
    ¬ Viable [.bracket .opening, .var "p", .bracket .closing,
      .operator (.binary .conjunction)] ∧
    ∀ rest, (Parser.wholeFormula 4).runAt ([.bracket .opening, .var "p", .bracket .closing,
      .operator (.binary .conjunction)] ++ rest) 0
        = .error (.unexpectedToken "EOF" (.operator (.binary .conjunction)) 3 ["formula"]) := by
  have htokens : tokenize "(p) & q" = .ok parenthesizedLeft := by decide +kernel
  have htext : Formula.ofText 4 "(p) & q" = .error (.parse
      (.unexpectedToken "EOF" (.operator (.binary .conjunction)) 3 ["formula"])
      ⟨4, 5, 1, 5⟩) := by decide +kernel
  obtain ⟨e, t, herr, -, hkind, hanswer, -⟩ := ofText_error_at_symbol htokens htext
  obtain ⟨rfl, -⟩ := Error.parse.inj herr
  obtain hdeep | ⟨-, hbefore, hupto⟩ := hkind
  · cases hdeep
  · exact ⟨htokens, htext, hbefore, hupto, hanswer⟩

end TrustLogic
