import TrustLogic.Formula.OfText
import TrustLogic.Proofs.Token.Layout

/-!
# The grammar of formulas

The reading of formulas looks one token ahead and never goes back. This file says that nothing is
lost by this: what is read are the sentences of the grammar, with the trees that they derive.

* `TrustLogic.Derives` is the grammar, as a relation between lists of tokens and formulas.
* `TrustLogic.levels` is the number of levels that the reading of a sentence opens, one for each
  operator and each opening parenthesis besides the first. A sentence is read whenever the limit
  admits its levels, and never otherwise.
* `TrustLogic.Stops` says where a reading may stop. Behind a variable it may not stop before a
  binary operator, because the operator is then read as part of the formula; behind a closing
  parenthesis it always may.

`TrustLogic.readFormula_eq_ok_iff` puts the three together. It determines what is read from the
tokens alone, so the grammar has no sentence with two trees (`TrustLogic.Derives.unique`).
-/

namespace TrustLogic

/-! ### Sentences -/

/-- **The grammar of formulas.** There is one rule and no precedence: a unary operator takes the
whole sentence after it, the left operand of a binary operator is a variable, and parentheses leave
no trace in the tree. -/
inductive Derives : List Token → Formula → Prop
  /-- A unary operator and a sentence. -/
  | unary (op : Unary) {ts : List Token} {φ : Formula} (h : Derives ts φ) :
    Derives (.operator (.unary op) :: ts) (.unary op φ)
  /-- A variable. -/
  | var (name : String) : Derives [.var name] (.var name)
  /-- A variable, a binary operator and a sentence. -/
  | binary (name : String) (op : Binary) {ts : List Token} {φ : Formula} (h : Derives ts φ) :
    Derives (.var name :: .operator (.binary op) :: ts) (.binary op (.var name) φ)
  /-- A sentence between parentheses. -/
  | between {ts : List Token} {φ : Formula} (h : Derives ts φ) :
    Derives (.bracket .opening :: (ts ++ [.bracket .closing])) φ

theorem Derives.ne_nil {ts : List Token} {φ : Formula} (h : Derives ts φ) : ts ≠ [] := by
  cases h <;> simp

/-! ### Levels -/

/-- Whether a token is an operator. -/
def Token.isOperator : Token → Bool
  | .operator _ => true
  | _ => false

/-- **The levels that a sentence opens**: the first one, and one more for each operator and for
each opening parenthesis. -/
def levels (ts : List Token) : Nat :=
  1 + ts.countP Token.isOperator + ts.count (.bracket .opening)

theorem levels_pos (ts : List Token) : 0 < levels ts := by
  rw [levels]
  omega

@[simp] theorem levels_nil : levels [] = 1 := rfl

@[simp] theorem levels_operator (op : Operator) (ts : List Token) :
    levels (.operator op :: ts) = levels ts + 1 := by
  simp only [levels, List.countP_cons_of_pos (show Token.isOperator (.operator op) from rfl),
    List.count_cons_of_ne (show Token.operator op ≠ .bracket .opening by simp)]
  omega

@[simp] theorem levels_var (name : String) (ts : List Token) :
    levels (.var name :: ts) = levels ts := by
  simp [levels, Token.isOperator]

@[simp] theorem levels_opening (ts : List Token) :
    levels (.bracket .opening :: ts) = levels ts + 1 := by
  simp [levels, Token.isOperator]
  omega

@[simp] theorem levels_closing (ts : List Token) :
    levels (ts ++ [.bracket .closing]) = levels ts := by
  simp [levels, Token.isOperator]

/-! ### Where a reading stops -/

/-- **Where a reading may stop**: behind a closing parenthesis, or before anything but a binary
operator. -/
def Stops (ts rest : List Token) : Prop :=
  ts.getLast? = some (.bracket .closing) ∨ ∀ op, rest.head? ≠ some (.operator (.binary op))

theorem stops_cons {t : Token} {ts rest : List Token} (hts : ts ≠ []) :
    Stops (t :: ts) rest ↔ Stops ts rest := by
  obtain ⟨u, us, rfl⟩ := List.exists_cons_of_ne_nil hts
  simp only [Stops, List.getLast?_cons_cons]

theorem stops_between (ts rest : List Token) :
    Stops (.bracket .opening :: (ts ++ [.bracket .closing])) rest :=
  Or.inl (by rw [← List.cons_append, List.getLast?_concat])

theorem stops_closing (ts rest : List Token) : Stops ts (.bracket .closing :: rest) :=
  Or.inr (by simp)

/-! ### The rule, case by case -/

section Cases

variable (limit room pos : Nat)

theorem readFormula_unary (op : Unary) (rest : List Token) :
    readFormula limit (room + 1) ⟨pos, .operator (.unary op) :: rest⟩
      = ((readFormula limit room ⟨pos + 1, rest⟩).mapValue (.unary op)).within "unary formula" := by
  rw [readFormula]

theorem readFormula_binary (name : String) (op : Binary) (rest : List Token) :
    readFormula limit (room + 1) ⟨pos, .var name :: .operator (.binary op) :: rest⟩
      = ((readFormula limit room ⟨pos + 2, rest⟩).within "right operand").mapValue
          (.binary op (.var name)) := by
  rw [readFormula]

theorem readFormula_var (name : String) {rest : List Token}
    (hrest : ∀ op, rest.head? ≠ some (.operator (.binary op))) :
    readFormula limit (room + 1) ⟨pos, .var name :: rest⟩
      = .ok (.var name, ⟨pos + 1, rest⟩) := by
  rcases rest with _ | ⟨_ | ⟨_ | op⟩ | _ | _, rest⟩
  case cons.operator.binary => exact absurd rfl (hrest op)
  all_goals rfl

theorem readFormula_opening (rest : List Token) :
    readFormula limit (room + 1) ⟨pos, .bracket .opening :: rest⟩
      = ((readFormula limit room ⟨pos + 1, rest⟩).andThen fun φ c =>
          (c.expect (.bracket .closing)).mapValue fun _ => φ).within "parenthesized formula" := by
  rw [readFormula]

end Cases

/-- No sentence begins with a binary operator, a closing parenthesis or the end of the text. -/
theorem readFormula_front {t : Token} (hunary : ∀ op, t ≠ .operator (.unary op))
    (hvar : ∀ name, t ≠ .var name) (hopening : t ≠ .bracket .opening) (limit room pos : Nat)
    (rest : List Token) :
    readFormula limit (room + 1) ⟨pos, t :: rest⟩
      = .error (.unexpectedToken "variable, '~', '[]', '<>' or '('" t pos []) := by
  rcases t with name | (op | op) | (_ | _) | _
  · exact absurd rfl (hvar name)
  · exact absurd rfl (hunary op)
  · rfl
  · exact absurd rfl hopening
  · rfl
  · rfl

theorem Cursor.expect_cons (t : Token) (pos : Nat) (rest : List Token) :
    (⟨pos, t :: rest⟩ : Cursor).expect t = .ok (t, ⟨pos + 1, rest⟩) := by
  simp [expect, take]

theorem Cursor.expect_eq_ok {c c' : Cursor} {t t' : Token} (h : c.expect t = .ok (t', c')) :
    t' = t ∧ c.rest = t :: c'.rest ∧ c'.pos = c.pos + 1 := by
  rw [expect, take] at h
  split at h
  · simp at h
  · next u rest hrest =>
    by_cases hu : u = t
    · simp only [hu, if_true] at h
      obtain ⟨rfl, rfl⟩ := Prod.mk.inj (Except.ok.inj h)
      exact ⟨rfl, hu ▸ hrest, rfl⟩
    · simp [hu] at h

/-! ### Reading a sentence -/

/-- **Every sentence is read** where the limit admits its levels and it may stop before what
follows. -/
theorem readFormula_of_derives {ts : List Token} {φ : Formula} (h : Derives ts φ)
    (limit : Nat) {room : Nat} (pos : Nat) (rest : List Token) (hroom : levels ts ≤ room)
    (hstop : Stops ts rest) :
    readFormula limit room ⟨pos, ts ++ rest⟩ = .ok (φ, ⟨pos + ts.length, rest⟩) := by
  induction room generalizing ts φ pos rest with
  | zero => exact absurd hroom (Nat.not_le_of_lt (levels_pos ts))
  | succ room ih =>
    cases h with
    | @unary op ts φ h =>
      rw [levels_operator, Nat.add_le_add_iff_right] at hroom
      rw [stops_cons h.ne_nil] at hstop
      rw [List.cons_append, readFormula_unary, ih h _ _ hroom hstop]
      simp [Nat.add_assoc, Nat.add_comm 1]
    | var name =>
      -- the variable is no closing parenthesis, so what follows is no binary operator
      have hrest : ∀ op, rest.head? ≠ some (.operator (.binary op)) :=
        hstop.resolve_left (by simp)
      exact readFormula_var limit room pos name hrest
    | @binary name op ts φ h =>
      rw [levels_var, levels_operator, Nat.add_le_add_iff_right] at hroom
      rw [stops_cons (by simp), stops_cons h.ne_nil] at hstop
      rw [List.cons_append, List.cons_append, readFormula_binary, ih h _ _ hroom hstop]
      simp [Nat.add_assoc, Nat.add_comm 2]
    | @between ts φ h =>
      rw [levels_opening, levels_closing, Nat.add_le_add_iff_right] at hroom
      rw [List.cons_append, List.append_assoc, List.singleton_append, readFormula_opening,
        ih h _ _ hroom (stops_closing ts rest), ParseResult.andThen_ok, Cursor.expect_cons]
      simp [Nat.add_assoc, Nat.add_comm 1]

/-- **A sentence with too many levels is refused for its depth**, whatever follows it. -/
theorem readFormula_of_lt_levels {ts : List Token} {φ : Formula} (h : Derives ts φ)
    (limit : Nat) {room : Nat} (pos : Nat) (rest : List Token) (hroom : room < levels ts) :
    ∃ p, readFormula limit room ⟨pos, ts ++ rest⟩ = .error (.tooDeep limit p) := by
  induction room generalizing ts φ pos rest with
  | zero => exact ⟨pos, rfl⟩
  | succ room ih =>
    cases h with
    | @unary op ts φ h =>
      rw [levels_operator, Nat.add_lt_add_iff_right] at hroom
      obtain ⟨p, hp⟩ := ih h (pos + 1) rest hroom
      refine ⟨p, ?_⟩
      rw [List.cons_append, readFormula_unary, hp]
      rfl
    | var name =>
      rw [levels_var, levels_nil] at hroom
      omega
    | @binary name op ts φ h =>
      rw [levels_var, levels_operator, Nat.add_lt_add_iff_right] at hroom
      obtain ⟨p, hp⟩ := ih h (pos + 2) rest hroom
      refine ⟨p, ?_⟩
      rw [List.cons_append, List.cons_append, readFormula_binary, hp]
      rfl
    | @between ts φ h =>
      rw [levels_opening, levels_closing, Nat.add_lt_add_iff_right] at hroom
      obtain ⟨p, hp⟩ := ih h (pos + 1) (.bracket .closing :: rest) hroom
      refine ⟨p, ?_⟩
      rw [List.cons_append, List.append_assoc, List.singleton_append, readFormula_opening, hp]
      rfl

/-- **What is read is a sentence.** -/
theorem derives_of_readFormula {limit room : Nat} {c c' : Cursor} {φ : Formula}
    (h : readFormula limit room c = .ok (φ, c')) :
    ∃ ts, c.rest = ts ++ c'.rest ∧ c'.pos = c.pos + ts.length ∧ Derives ts φ ∧
      levels ts ≤ room ∧ Stops ts c'.rest := by
  -- the cases are the branches of the rule, in the order in which it tries them
  fun_induction readFormula limit room c generalizing φ c' with
  | case1 c => simp at h
  | case2 room c hc => simp at h
  | case3 room c op rest hc ih =>
    obtain ⟨ψ, hψ, rfl⟩ := ParseResult.mapValue_eq_ok_iff.mp (ParseResult.within_eq_ok_iff.mp h)
    obtain ⟨ts, hrest, hpos, hts, hroom, hstop⟩ := ih hψ
    dsimp only at hrest hpos
    refine ⟨.operator (.unary op) :: ts, by rw [hc, hrest, List.cons_append], ?_, .unary op hts,
      by simpa using hroom, (stops_cons hts.ne_nil).mpr hstop⟩
    rw [hpos, List.length_cons]
    omega
  | case4 room c name op rest hc ih =>
    obtain ⟨ψ, hψ, rfl⟩ := ParseResult.mapValue_eq_ok_iff.mp h
    obtain ⟨ts, hrest, hpos, hts, hroom, hstop⟩ := ih (ParseResult.within_eq_ok_iff.mp hψ)
    dsimp only at hrest hpos
    refine ⟨.var name :: .operator (.binary op) :: ts, by rw [hc, hrest]; rfl, ?_,
      .binary name op hts, by simpa using hroom, ?_⟩
    · rw [hpos, List.length_cons, List.length_cons]
      omega
    · rwa [stops_cons (by simp), stops_cons hts.ne_nil]
  | case5 room c name rest hne hc =>
    obtain ⟨rfl, rfl⟩ := Prod.mk.inj (Except.ok.inj h)
    refine ⟨[.var name], hc, rfl, .var name, by simp, Or.inr ?_⟩
    intro op hop
    obtain ⟨rest', rfl⟩ := List.head?_eq_some_iff.mp hop
    exact hne op rest' rfl
  | case6 room c rest hc ih =>
    obtain ⟨ψ, c₁, hψ, hexp⟩ := ParseResult.andThen_eq_ok_iff.mp (ParseResult.within_eq_ok_iff.mp h)
    obtain ⟨t, ht, rfl⟩ := ParseResult.mapValue_eq_ok_iff.mp hexp
    obtain ⟨-, hrest₁, hpos₁⟩ := Cursor.expect_eq_ok ht
    obtain ⟨ts, hrest, hpos, hts, hroom, -⟩ := ih hψ
    dsimp only at hrest hpos
    refine ⟨.bracket .opening :: (ts ++ [.bracket .closing]), ?_, ?_, .between hts,
      by simpa using hroom, stops_between ts c'.rest⟩
    · rw [hc, hrest, hrest₁]
      simp
    · rw [hpos₁, hpos, List.length_cons, List.length_append, List.length_singleton]
      omega
  | case7 room c t rest h1 h2 h3 hc => simp at h

/-- **What is read at a cursor are the sentences of the grammar**: the limit admits exactly those
with few enough levels, and the reading stops where it must. -/
theorem readFormula_eq_ok_iff {limit room : Nat} {c c' : Cursor} {φ : Formula} :
    readFormula limit room c = .ok (φ, c') ↔
      ∃ ts, c.rest = ts ++ c'.rest ∧ c'.pos = c.pos + ts.length ∧ Derives ts φ ∧
        levels ts ≤ room ∧ Stops ts c'.rest := by
  constructor
  · exact derives_of_readFormula
  · rintro ⟨ts, hrest, hpos, hts, hroom, hstop⟩
    have hread := readFormula_of_derives hts limit c.pos c'.rest hroom hstop
    rwa [← hrest, ← hpos] at hread

/-- **No sentence derives two trees**: the reading finds each of them. -/
theorem Derives.unique {ts : List Token} {φ ψ : Formula} (hφ : Derives ts φ)
    (hψ : Derives ts ψ) : φ = ψ := by
  -- a list of tokens that ends behind the sentence may be left there
  have hstop : Stops ts [] := Or.inr (by simp)
  have h := readFormula_of_derives hφ 0 0 [] (Nat.le_refl _) hstop
  rw [readFormula_of_derives hψ 0 0 [] (Nat.le_refl _) hstop] at h
  exact (Prod.mk.inj (Except.ok.inj h)).1.symm

/-! ### Reading a whole text -/

theorem Parser.run_wholeFormula (limit : Nat) (c : Cursor) :
    (wholeFormula limit).run c
      = ((readFormula limit limit c).andThen fun φ c' =>
          (c'.expect .eof).mapValue fun _ => φ).within "formula" := by
  simp only [wholeFormula, run]
  rcases readFormula limit limit c with e | ⟨φ, c'⟩
  · rfl
  · simp only [ParseResult.andThen_ok]
    rcases c'.expect .eof with e | ⟨t, c''⟩ <;> rfl

theorem Parser.run_wholeFormula_eq_ok_iff {limit : Nat} {c c' : Cursor} {φ : Formula} :
    (wholeFormula limit).run c = .ok (φ, c') ↔
      ∃ c₁, readFormula limit limit c = .ok (φ, c₁) ∧ c₁.expect .eof = .ok (.eof, c') := by
  rw [run_wholeFormula, ParseResult.within_eq_ok_iff, ParseResult.andThen_eq_ok_iff]
  constructor
  · rintro ⟨ψ, c₁, hψ, hexp⟩
    obtain ⟨t, ht, rfl⟩ := ParseResult.mapValue_eq_ok_iff.mp hexp
    exact ⟨c₁, hψ, (Cursor.expect_eq_ok ht).1 ▸ ht⟩
  · rintro ⟨c₁, hφ, hexp⟩
    exact ⟨φ, c₁, hφ, ParseResult.mapValue_eq_ok_iff.mpr ⟨_, hexp, rfl⟩⟩

/-- The only end of a text is its last token, so what stands before an end is determined. -/
theorem eq_of_append_eof {ts us rest : List Token} (hts : ∀ t ∈ ts, t ≠ .eof)
    (h : ts ++ [.eof] = us ++ .eof :: rest) : us = ts := by
  -- one of the lists begins with the other, and what is left of it would begin with an end
  rcases List.append_eq_append_iff.mp h with ⟨as, rfl, has⟩ | ⟨bs, rfl, hbs⟩
  · rcases as with _ | ⟨a, as⟩
    · exact List.append_nil ts
    · simp at has
  · rcases bs with _ | ⟨b, bs⟩
    · exact (List.append_nil us).symm
    · rw [List.cons_append] at hbs
      exact absurd (List.cons.inj hbs).1.symm (hts b (by simp))

/-- **A formula with the end of the text after it** is read from the sentences. -/
theorem wholeFormula_eq_ok_iff {limit : Nat} {ts : List Token} {φ : Formula}
    (hts : ∀ t ∈ ts, t ≠ .eof) :
    (∃ c, (Parser.wholeFormula limit).runAt (ts ++ [.eof]) 0 = .ok (φ, c)) ↔
      Derives ts φ ∧ levels ts ≤ limit := by
  simp only [Parser.runAt, Parser.run_wholeFormula_eq_ok_iff, Cursor.ofTokens, List.drop_zero]
  constructor
  · rintro ⟨c, c₁, hφ, hexp⟩
    obtain ⟨us, hrest, -, hus, hlevels, -⟩ := readFormula_eq_ok_iff.mp hφ
    obtain ⟨-, hrest₁, -⟩ := Cursor.expect_eq_ok hexp
    rw [hrest₁] at hrest
    obtain rfl : us = ts := eq_of_append_eof hts hrest
    exact ⟨hus, hlevels⟩
  · rintro ⟨hφ, hlevels⟩
    have hread := readFormula_of_derives hφ limit 0 [.eof] hlevels (Or.inr (by simp))
    exact ⟨_, _, hread, Cursor.expect_cons _ _ _⟩

/-- **A text denotes the formula that its symbols derive.** -/
theorem ofText_eq_ok_iff {limit : Nat} {s : String} {φ : Formula} :
    Formula.ofText limit s = .ok φ ↔
      ∃ ts, tokenize s = .ok ts ∧ Derives (ts.map Located.token).dropLast φ ∧
        levels (ts.map Located.token).dropLast ≤ limit := by
  rw [Formula.ofText]
  rcases htok : tokenize s with e | ts
  · simp
  · -- the symbols before the last one hold no end, which is what the reading stops at
    obtain ⟨init, hts, hinit⟩ := (tokenize_eq_ok_iff.mp htok).eq_append_eof
    have hmap : ts.map Located.token = init.map Located.token ++ [.eof] := by
      rw [hts, List.map_append]
      rfl
    have hne : ∀ t ∈ init.map Located.token, t ≠ .eof := by
      intro t ht
      obtain ⟨u, hu, rfl⟩ := List.mem_map.mp ht
      exact (hinit u hu).ne_eof
    simp only [Except.ok.injEq, exists_eq_left', hmap, List.dropLast_concat]
    rw [← wholeFormula_eq_ok_iff hne]
    rcases hrun : (Parser.wholeFormula limit).runAt (init.map Located.token ++ [.eof]) 0
      with e | ⟨ψ, c⟩
    · simp [hrun]
    · simp [hrun]

/-- A text whose symbols open too many levels is refused for its depth. -/
theorem ofText_of_lt_levels {limit : Nat} {s : String} {ts : List Located} {us : List Token}
    {φ : Formula} (hs : tokenize s = .ok ts) (hts : ts.map Located.token = us ++ [.eof])
    (hφ : Derives us φ) (hlimit : limit < levels us) :
    ∃ pos span, Formula.ofText limit s = .error (.parse (.tooDeep limit pos) span) := by
  obtain ⟨p, hp⟩ := readFormula_of_lt_levels hφ limit 0 [.eof] hlimit
  have hrun : (Parser.wholeFormula limit).runAt (us ++ [.eof]) 0 = .error (.tooDeep limit p) := by
    rw [Parser.runAt, Parser.run_wholeFormula, Cursor.ofTokens, List.drop_zero, hp]
    rfl
  refine ⟨p, spanAt ts p, ?_⟩
  simp only [Formula.ofText, hs, hts, hrun]
  rfl

/-! ### The grammar decides -/

/-- The tokens between two cursors, as those between their positions. -/
theorem drop_eq_append_iff {input ts : List Token} {pos : Nat} {c : Cursor} (hts : ts ≠ []) :
    input.drop pos = ts ++ c.rest ∧ c.pos = pos + ts.length ↔
      c = Cursor.ofTokens input c.pos ∧ pos ≤ c.pos ∧ c.pos ≤ input.length ∧
        input.extract pos c.pos = ts := by
  obtain ⟨stop, rest⟩ := c
  simp only [Cursor.ofTokens, Cursor.mk.injEq, true_and, List.extract_eq_take_drop]
  constructor
  · rintro ⟨hdrop, rfl⟩
    have hlen := congrArg List.length hdrop
    have hpos := List.length_pos_iff.mpr hts
    simp only [List.length_drop, List.length_append] at hlen
    refine ⟨?_, by omega, by omega, ?_⟩
    · rw [← List.drop_drop, hdrop, List.drop_left]
    · rw [hdrop, Nat.add_sub_cancel_left, List.take_left]
  · rintro ⟨rfl, hle, hlen, rfl⟩
    refine ⟨?_, ?_⟩
    · have happ := List.take_append_drop (stop - pos) (input.drop pos)
      rw [List.drop_drop, Nat.add_sub_cancel' hle] at happ
      exact happ.symm
    · rw [List.length_take, List.length_drop]
      omega

/-- **What is read is what the grammar derives**, with the tree that it derives, in three parts.
At a position of a list of tokens a formula is read exactly if a stretch of the tokens derives it,
opens no more levels than the limit, and may be left where it ends. A text denotes a formula
exactly if its symbols, without the end of the text, derive it within the limit. No list of tokens
derives two formulas. -/
theorem reads_iff_derives :
    (∀ (limit : Nat) (input : List Token) (pos : Nat) (φ : Formula) (c : Cursor),
      (Parser.formula limit).runAt input pos = .ok (φ, c) ↔
        c = Cursor.ofTokens input c.pos ∧ pos ≤ c.pos ∧ c.pos ≤ input.length ∧
        Derives (input.extract pos c.pos) φ ∧
        levels (input.extract pos c.pos) ≤ limit ∧
        ((input.extract pos c.pos).getLast? = some (.bracket .closing) ∨
          ∀ op, input[c.pos]? ≠ some (.operator (.binary op)))) ∧
    (∀ (limit : Nat) (s : String) (φ : Formula),
      Formula.ofText limit s = .ok φ ↔
        ∃ ts, tokenize s = .ok ts ∧ Derives (ts.map Located.token).dropLast φ ∧
          levels (ts.map Located.token).dropLast ≤ limit) ∧
    ∀ (ts : List Token) (φ ψ : Formula), Derives ts φ → Derives ts ψ → φ = ψ := by
  refine ⟨?_, fun limit s φ => ofText_eq_ok_iff, fun ts φ ψ hφ hψ => hφ.unique hψ⟩
  intro limit input pos φ c
  have hhead : ∀ op, (c = Cursor.ofTokens input c.pos) →
      (c.rest.head? ≠ some (.operator (.binary op)) ↔
        input[c.pos]? ≠ some (.operator (.binary op))) := by
    intro op hc
    rw [congrArg Cursor.rest hc, Cursor.ofTokens, List.head?_drop]
  change readFormula limit limit (Cursor.ofTokens input pos) = .ok (φ, c) ↔ _
  rw [readFormula_eq_ok_iff]
  constructor
  · rintro ⟨ts, hrest, hpos, hts, hlevels, hstop⟩
    obtain ⟨hc, hle, hlen, rfl⟩ := (drop_eq_append_iff hts.ne_nil).mp ⟨hrest, hpos⟩
    exact ⟨hc, hle, hlen, hts, hlevels, hstop.imp id fun h op => (hhead op hc).mp (h op)⟩
  · rintro ⟨hc, hle, hlen, hts, hlevels, hstop⟩
    obtain ⟨hrest, hpos⟩ := (drop_eq_append_iff hts.ne_nil).mpr ⟨hc, hle, hlen, rfl⟩
    exact ⟨_, hrest, hpos, hts, hlevels, hstop.imp id fun h op => (hhead op hc).mpr (h op)⟩

/-- A reading from the second token on stops behind the closing parenthesis, though a binary
operator follows, and the parenthesized tokens derive nothing else. -/
theorem reads_iff_derives_between :
    (Parser.formula 4).runAt [.operator (.unary .negation), .bracket .opening, .var "p",
        .operator (.binary .conjunction), .operator (.unary .negation), .var "q",
        .bracket .closing, .operator (.binary .disjunction), .var "r"] 1
      = .ok (.binary .conjunction (.var "p") (.unary .negation (.var "q")),
          ⟨7, [.operator (.binary .disjunction), .var "r"]⟩) ∧
    ∀ φ, Derives [.bracket .opening, .var "p", .operator (.binary .conjunction),
        .operator (.unary .negation), .var "q", .bracket .closing] φ →
      φ = .binary .conjunction (.var "p") (.unary .negation (.var "q")) := by
  obtain ⟨hreads, -, hunique⟩ := reads_iff_derives
  have hderives : Derives [.bracket .opening, .var "p", .operator (.binary .conjunction),
      .operator (.unary .negation), .var "q", .bracket .closing]
      (.binary .conjunction (.var "p") (.unary .negation (.var "q"))) :=
    .between (.binary "p" .conjunction (.unary .negation (.var "q")))
  refine ⟨(hreads 4 _ 1 _ _).mpr ⟨rfl, by decide, by decide, hderives, by decide, Or.inl rfl⟩, ?_⟩
  exact fun φ hφ => hunique _ _ _ hφ hderives

end TrustLogic
