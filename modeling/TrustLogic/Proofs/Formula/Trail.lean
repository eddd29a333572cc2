import TrustLogic.Proofs.Formula.FirstFault
import TrustLogic.Proofs.Formula.Parentheses

/-!
# The trail of a fault

The names in a trail are gathered on the way back up, one on each level that a fault passes, and
rules are named at different places: around the operator and its operand, around the right operand
only, around both parentheses. This file says what the names amount to for someone who looks at the
tokens. A trail mentions the rules that are open where the fault is met, each of them once and the
innermost one first, and it does not mention any rule that has been read.

* `TrustLogic.Token.rule?` – the rule that a token opens; `TrustLogic.rulesOf` are the rules of
  several tokens.
* `TrustLogic.RuleRead` – when such a rule has been read. This is a matter of sentences and takes no
  reading. `TrustLogic.OpenRules` splits the tokens before a fault by it, as operators and
  parentheses whose rules are open stand before those whose rules have been read.
* `TrustLogic.AwaitsFormula`, `TrustLogic.BehindFormula` – the two kinds of places where faults are
  met.
* `TrustLogic.TrailedAt` – all of this for one level; a fault on a level is one on the level around
  it (`TrustLogic.TrailedAt.lift`).

That a rule is open is not proved by going through its tokens. If it had been read, then the level
where it was to be read would have met a sentence, and a level that meets a sentence does not end
with a trail (`TrustLogic.not_derives_of_trail?`).
-/

namespace TrustLogic

/-! ### Rules and the tokens that open them -/

/-- The rule that a token opens, under the name by which trails mention it. -/
def Token.rule? : Token → Option String
  | .operator (.unary _) => some "unary formula"
  | .operator (.binary _) => some "right operand"
  | .bracket .opening => some "parenthesized formula"
  | _ => none

/-- **The rules that tokens open**, the last one first. -/
def rulesOf (ts : List Token) : List String :=
  (ts.filterMap Token.rule?).reverse

theorem rulesOf_cons (t : Token) (ts : List Token) :
    rulesOf (t :: ts) = rulesOf ts ++ t.rule?.toList := by
  rw [rulesOf, List.filterMap_cons]
  cases t.rule? <;> simp [rulesOf]

/-- **The rule of a token has been read** within the tokens `back` that stand behind it, where
`after` are the tokens to come. The rule of an operator is read with its operand, and the rule of a
parenthesis with the one that closes it. -/
inductive RuleRead : Token → List Token → List Token → Prop
  /-- The operand of an operator is a sentence that may stop before what follows it. -/
  | operator (op : Operator) {back after ts rest : List Token} {φ : Formula}
    (hback : back = ts ++ rest) (h : Derives ts φ) (hstop : Stops ts (rest ++ after)) :
    RuleRead (.operator op) back after
  /-- A sentence and a closing parenthesis stand behind an opening one. -/
  | bracket {back after ts rest : List Token} {φ : Formula}
    (hback : back = ts ++ .bracket .closing :: rest) (h : Derives ts φ) :
    RuleRead (.bracket .opening) back after

/-- What comes next is as good as what stands there already. -/
theorem RuleRead.append {t : Token} {back us after : List Token}
    (h : RuleRead t back (us ++ after)) : RuleRead t (back ++ us) after := by
  cases h with
  | @operator op _ _ ts rest φ hback h hstop =>
    have hback' : back ++ us = ts ++ (rest ++ us) := by rw [hback, List.append_assoc]
    have hstop' : Stops ts ((rest ++ us) ++ after) := by rwa [List.append_assoc]
    exact .operator op hback' h hstop'
  | @bracket _ _ ts rest φ hback h =>
    have hback' : back ++ us = ts ++ .bracket .closing :: (rest ++ us) := by
      rw [hback, List.append_assoc, List.cons_append]
    exact .bracket hback' h

section Suffixes

variable {P : Token → List Token → Prop}

theorem forall_suffix_nil : ∀ t back, t :: back <:+ [] → P t back := by
  intro t back hback
  cases List.suffix_nil.mp hback

/-- What is true of the first token and what stands behind it, and of all others and what stands
behind them. -/
theorem forall_suffix_cons {t : Token} {ts : List Token} (ht : P t ts)
    (hts : ∀ u back, u :: back <:+ ts → P u back) : ∀ u back, u :: back <:+ t :: ts → P u back := by
  intro u back hback
  obtain heq | hback := List.suffix_cons_iff.mp hback
  · obtain ⟨rfl, rfl⟩ := List.cons.inj heq
    exact ht
  · exact hts u back hback

end Suffixes

/-- **All rules that a sentence opens have been read** at its end. -/
theorem Derives.ruleRead {ts after : List Token} {φ : Formula} (h : Derives ts φ)
    (hstop : Stops ts after) :
    ∀ t back, t :: back <:+ ts → t.rule?.isSome → RuleRead t back after := by
  induction h generalizing after with
  | @unary op ts φ h ih =>
    have hstop' : Stops ts after := (stops_cons h.ne_nil).mp hstop
    have hop : RuleRead (.operator (.unary op)) ts after :=
      .operator _ (List.append_nil ts).symm h hstop'
    exact forall_suffix_cons (fun _ => hop) (ih hstop')
  | var name => exact forall_suffix_cons nofun forall_suffix_nil
  | @binary name op ts φ h ih =>
    have hstop' : Stops ts after := (stops_cons h.ne_nil).mp ((stops_cons (by simp)).mp hstop)
    have hop : RuleRead (.operator (.binary op)) ts after :=
      .operator _ (List.append_nil ts).symm h hstop'
    exact forall_suffix_cons nofun (forall_suffix_cons (fun _ => hop) (ih hstop'))
  | @between ts φ h ih =>
    refine forall_suffix_cons (fun _ => .bracket rfl h) fun t back hback ht => ?_
    -- the closing parenthesis stands behind everything that is enclosed
    obtain hnil | ⟨us, heq, hus⟩ := List.suffix_concat_iff.mp hback
    · cases hnil
    · rcases us with _ | ⟨u, us⟩
      · obtain ⟨rfl, -⟩ := List.cons.inj heq
        cases ht
      · obtain ⟨rfl, rfl⟩ := List.cons.inj heq
        exact (ih (stops_closing ts after) t us hus ht).append

/-! ### Open rules -/

/-- **The rules that are open** behind the tokens `opened ++ closed`, where `after` are the tokens
to come: those of the tokens in `opened`, and none of those in `closed`. -/
structure OpenRules (opened closed after : List Token) : Prop where
  /-- No rule has been read that a token in `opened` opens. -/
  unread : ∀ t back, t :: back <:+ opened → ¬ RuleRead t (back ++ closed) after
  /-- Every rule has been read that a token in `closed` opens. -/
  read : ∀ t back, t :: back <:+ closed → t.rule?.isSome → RuleRead t back after

theorem openRules_nil (after : List Token) : OpenRules [] [] after :=
  ⟨forall_suffix_nil, forall_suffix_nil⟩

theorem OpenRules.cons {t : Token} {opened closed after : List Token}
    (h : OpenRules opened closed after) (ht : ¬ RuleRead t (opened ++ closed) after) :
    OpenRules (t :: opened) closed after :=
  ⟨forall_suffix_cons ht h.unread, h.read⟩

/-- Behind a sentence no rule is open that it has opened. -/
theorem Derives.openRules {ts after : List Token} {φ : Formula} (h : Derives ts φ)
    (hstop : Stops ts after) : OpenRules [] ts after :=
  ⟨forall_suffix_nil, h.ruleRead hstop⟩

/-- **A formula is to begin**: the last token opens a rule, and no rule has been read. -/
def AwaitsFormula (opened closed : List Token) : Prop :=
  closed = [] ∧ ∀ t, opened.getLast? = some t → t.rule?.isSome

/-- **A formula is complete** behind a variable and `k` closing parentheses. Open are the rules from
the innermost parenthesis outwards that is left open by these, if there is one. -/
def BehindFormula (opened closed : List Token) : Prop :=
  ∃ front name k, opened ++ closed = front ++ .var name :: List.replicate k (.bracket .closing) ∧
    .bracket .closing ∉ front ∧ closed.count (.bracket .opening) = k ∧
    (opened = [] ∨ opened.getLast? = some (.bracket .opening))

namespace ParseError

/-- The trail of a fault that is about a token. -/
def trail? : ParseError → Option (List String)
  | unexpectedEnd _ _ trail => some trail
  | unexpectedToken _ _ _ trail => some trail
  | tooDeep _ _ => none

theorem trail?_within (label : String) (e : ParseError) :
    (e.within label).trail? = e.trail?.map (· ++ [label]) := by
  cases e <;> rfl

theorem isSome_trail?_iff {e : ParseError} : e.trail?.isSome ↔ ∀ n p, e ≠ .tooDeep n p := by
  cases e <;> simp [trail?]

/-- A message ends with the trail, joined by arrows. -/
theorem exists_message_eq {e : ParseError} {trail : List String} (h : e.trail? = some trail)
    (hne : trail ≠ []) :
    ∃ said, e.message = said ++ ("Some(" ++ quote (" -> ".intercalate trail) ++ ")") := by
  have htext : trailText trail = "Some(" ++ quote (" -> ".intercalate trail) ++ ")" := by
    obtain ⟨label, labels, rfl⟩ := List.exists_cons_of_ne_nil hne
    rfl
  rw [← htext]
  cases e with
  | unexpectedEnd expected p trail =>
    obtain rfl := Option.some.inj h
    exact ⟨_, rfl⟩
  | unexpectedToken expected found p trail =>
    obtain rfl := Option.some.inj h
    exact ⟨_, (String.append_assoc ..).symm⟩
  | tooDeep limit p => cases h

end ParseError

theorem Cursor.expect_eq_error {c : Cursor} {t : Token} {e : ParseError}
    (h : c.expect t = .error e) : e.pos = c.pos ∧ e.trail? = some [] := by
  rw [expect, take] at h
  split at h
  · obtain rfl := Except.error.inj h
    exact ⟨rfl, rfl⟩
  · split at h
    · cases h
    · obtain rfl := Except.error.inj h
      exact ⟨rfl, rfl⟩

/-- **A reading that ends with a trail has met no sentence** where it started. -/
theorem not_derives_of_trail? {limit room pos : Nat} {ts rest : List Token} {e : ParseError}
    (h : readFormula limit room ⟨pos, ts ++ rest⟩ = .error e) (he : e.trail?.isSome)
    (hstop : Stops ts rest) (φ : Formula) : ¬ Derives ts φ := by
  intro hφ
  rcases Nat.lt_or_ge room (levels ts) with hlt | hle
  · obtain ⟨p, hp⟩ := readFormula_of_lt_levels hφ limit pos rest hlt
    obtain rfl := Except.error.inj (h.symm.trans hp)
    cases he
  · have hread := readFormula_of_derives hφ limit pos rest hle hstop
    rw [h] at hread
    cases hread

theorem not_ruleRead_of_trail? {limit room pos : Nat} {back after : List Token} {e : ParseError}
    (h : readFormula limit room ⟨pos, back ++ after⟩ = .error e) (he : e.trail?.isSome)
    (t : Token) : ¬ RuleRead t back after := by
  intro hread
  cases hread with
  | @operator op _ _ ts rest φ hback hφ hstop =>
    rw [hback, List.append_assoc] at h
    exact not_derives_of_trail? h he hstop φ hφ
  | @bracket _ _ ts rest φ hback hφ =>
    rw [hback, List.append_assoc, List.cons_append] at h
    exact not_derives_of_trail? h he (stops_closing ts _) φ hφ

/-- **A fault on a level**: it is met behind the tokens `opened ++ closed`, and its trail are the
rules that are open there. -/
structure TrailedAt (pos : Nat) (opened closed after : List Token) (e : ParseError) : Prop where
  pos_eq : e.pos = pos + (opened.length + closed.length)
  trail : e.trail? = some (rulesOf opened)
  rules : OpenRules opened closed after
  kind : AwaitsFormula opened closed ∨ BehindFormula opened closed

section Lift

variable {lead opened closed after : List Token} {label : String} {e : ParseError} {pos : Nat}

theorem Opens.rulesOf_append (hlead : Opens lead label) (ts : List Token) :
    rulesOf (lead ++ ts) = rulesOf ts ++ [label] := by
  cases hlead <;> simp [rulesOf_cons, Token.rule?]

theorem Opens.closing_notMem (hlead : Opens lead label) : .bracket .closing ∉ lead := by
  cases hlead <;> simp

theorem OpenRules.lift (h : OpenRules opened closed after) (hlead : Opens lead label)
    (hopen : ∀ t, ¬ RuleRead t (opened ++ closed) after) :
    OpenRules (lead ++ opened) closed after := by
  cases hlead with
  | unary op => exact h.cons (hopen _)
  | binary name op => exact (h.cons (hopen _)).cons nofun
  | bracket => exact h.cons (hopen _)

theorem AwaitsFormula.lift (h : AwaitsFormula opened closed) (hlead : Opens lead label) :
    AwaitsFormula (lead ++ opened) closed := by
  refine ⟨h.1, fun t ht => ?_⟩
  rw [List.getLast?_append, Option.or_eq_some_iff] at ht
  obtain ht | ⟨-, ht⟩ := ht
  · exact h.2 t ht
  · cases hlead <;> cases ht <;> rfl

theorem BehindFormula.lift (h : BehindFormula opened closed) (hne : opened ≠ [])
    (hlead : Opens lead label) : BehindFormula (lead ++ opened) closed := by
  obtain ⟨front, name, k, happ, hfront, hcount, hlast⟩ := h
  refine ⟨lead ++ front, name, k, ?_, ?_, hcount, .inr ?_⟩
  · rw [List.append_assoc, happ, List.append_assoc]
  · exact List.not_mem_append hlead.closing_notMem hfront
  · rw [List.getLast?_append, hlast.resolve_left hne, Option.some_or]

/-- **A fault on a level is one on the level around it**, with one more rule open. -/
theorem TrailedAt.lift (h : TrailedAt (pos + lead.length) opened closed after e)
    (hlead : Opens lead label) (hopen : ∀ t, ¬ RuleRead t (opened ++ closed) after)
    (hne : BehindFormula opened closed → opened ≠ []) :
    TrailedAt pos (lead ++ opened) closed after (e.within label) where
  pos_eq := by
    rw [ParseError.pos_within, h.pos_eq, List.length_append]
    omega
  trail := by
    rw [ParseError.trail?_within, h.trail, hlead.rulesOf_append]
    rfl
  rules := h.rules.lift hlead hopen
  kind := h.kind.imp (·.lift hlead) fun hkind => hkind.lift (hne hkind) hlead

end Lift

/-- Behind a sentence a formula is complete. -/
theorem Derives.behindFormula {opened ts : List Token} {φ : Formula} (h : Derives ts φ)
    (hclosing : .bracket .closing ∉ opened)
    (hlast : opened = [] ∨ opened.getLast? = some (.bracket .opening)) :
    BehindFormula opened ts := by
  obtain ⟨front, name, hts, hfront⟩ := h.exists_front
  refine ⟨opened ++ front, name, _, by rw [hts, List.append_assoc],
    List.not_mem_append hclosing hfront, ?_, hlast⟩
  rw [hts]
  simp [List.count_replicate]

/-! ### Where a fault is met -/

/-- **A fault among the tokens `cs`**, with the rules that are open there as its trail. No formula is
complete on the level itself. -/
def Trailed (pos : Nat) (cs : List Token) (e : ParseError) : Prop :=
  ∃ opened closed after, cs = opened ++ (closed ++ after) ∧
    (BehindFormula opened closed → opened ≠ []) ∧ TrailedAt pos opened closed after e

/-- A fault at the first token has nothing to mention. -/
theorem trailed_front {pos : Nat} {e : ParseError} (hpos : e.pos = pos) (he : e.trail? = some [])
    (cs : List Token) : Trailed pos cs e := by
  refine ⟨[], [], cs, rfl, ?_, hpos, he, openRules_nil cs, .inl ⟨rfl, by simp⟩⟩
  rintro ⟨front, name, k, happ, -⟩
  simp at happ

theorem Trailed.lift {lead cs : List Token} {label : String} {limit room pos : Nat}
    {e : ParseError} (h : Trailed (pos + lead.length) cs e) (hlead : Opens lead label)
    (hread : readFormula limit room ⟨pos + lead.length, cs⟩ = .error e) :
    Trailed pos (lead ++ cs) (e.within label) := by
  obtain ⟨opened, closed, after, rfl, hne, htrailed⟩ := h
  have hopen : ∀ t, ¬ RuleRead t (opened ++ closed) after := by
    rw [← List.append_assoc] at hread
    exact not_ruleRead_of_trail? hread (by rw [htrailed.trail]; rfl)
  refine ⟨lead ++ opened, closed, after, (List.append_assoc ..).symm, fun _ => ?_,
    htrailed.lift hlead hopen hne⟩
  cases hlead <;> simp

/-- **A closing parenthesis that is missing** behind a sentence. Nothing that the sentence opens is
open any more, and the opening parenthesis before it is. -/
theorem trailed_closing {ts after : List Token} {φ : Formula} {limit room pos : Nat}
    {e : ParseError} (hφ : Derives ts φ) (hstop : Stops ts after)
    (hread : readFormula limit room ⟨pos, .bracket .opening :: (ts ++ after)⟩
      = .error (e.within "parenthesized formula"))
    (hpos : e.pos = pos + 1 + ts.length) (he : e.trail? = some []) :
    Trailed pos (.bracket .opening :: (ts ++ after)) (e.within "parenthesized formula") := by
  have htrail : (e.within "parenthesized formula").trail? = some ["parenthesized formula"] := by
    rw [ParseError.trail?_within, he]
    rfl
  have hopen : ¬ RuleRead (.bracket .opening) ts after := by
    intro hrule
    cases hrule with
    | @bracket _ _ us rest ψ hback hψ =>
      -- a sentence that is closed here would have been read with its parentheses
      have hsplit : Token.bracket .opening :: (ts ++ after)
          = (.bracket .opening :: (us ++ [.bracket .closing])) ++ (rest ++ after) := by
        simp [hback]
      rw [hsplit] at hread
      exact not_derives_of_trail? hread (by rw [htrail]; rfl) (stops_between us _) ψ (.between hψ)
  refine ⟨[.bracket .opening], ts, after, rfl, by simp, ?_, htrail, (hφ.openRules hstop).cons hopen,
    .inr (hφ.behindFormula (by simp) (.inr rfl))⟩
  rw [ParseError.pos_within, hpos, List.length_singleton, Nat.add_assoc]

/-- **Every fault that is about a token has a trail of open rules.** -/
theorem Faults.trailed {limit room pos : Nat} {cs : List Token} {e : ParseError}
    (h : Faults limit room pos cs e) (he : e.trail?.isSome) : Trailed pos cs e := by
  induction h with
  | deep => cases he
  | ended => exact trailed_front (by rfl) (by rfl) _
  | front => exact trailed_front (by rfl) (by rfl) _
  | level hlead h ih =>
    rw [ParseError.trail?_within, Option.isSome_map] at he
    exact (ih he).lift hlead h.readFormula_eq
  | @closing room pos _ _ _ _ hφ hlevels hstop h =>
    have hfault : Faults limit (room + 1) pos _ _ := .closing hφ hlevels hstop h
    obtain ⟨hpos, htrail⟩ := Cursor.expect_eq_error h
    exact trailed_closing hφ hstop hfault.readFormula_eq hpos htrail

/-- **The trail of a fault are the rules that are open where it is met**, for every list of tokens,
every start and every limit. The tokens from the start up to the fault are `opened ++ closed`. All
rules that are opened by the former are still being read, and they make up the trail, the innermost
one first; all rules that are opened by the latter have been read, and none of them is mentioned.
Either a formula is to begin at the fault, and then no rule has been read. Or a formula is complete
there, and open are the rules from the innermost parenthesis outwards that has not been closed. -/
theorem wholeFormula_error_trail {tokens : List Token} {start limit : Nat} {e : ParseError}
    (h : (Parser.wholeFormula limit).runAt tokens start = .error e)
    (he : ∀ n p, e ≠ .tooDeep n p) :
    ∃ opened closed after, tokens.drop start = opened ++ (closed ++ after) ∧
      e.pos = start + (opened.length + closed.length) ∧
      e.trail? = some (rulesOf opened ++ ["formula"]) ∧
      (∃ said, e.message = said ++
        ("Some(" ++ quote (" -> ".intercalate (rulesOf opened ++ ["formula"])) ++ ")")) ∧
      OpenRules opened closed after ∧
      (AwaitsFormula opened closed ∨ BehindFormula opened closed) := by
  rw [Parser.runAt, Parser.run_wholeFormula] at h
  obtain ⟨e', hrun, rfl⟩ := ParseResult.within_eq_error_iff.mp h
  obtain ⟨opened, closed, after, hdrop, htrailed⟩ : ∃ opened closed after,
      tokens.drop start = opened ++ (closed ++ after) ∧
        TrailedAt start opened closed after e' := by
    rcases hread : readFormula limit limit (.ofTokens tokens start) with e'' | ⟨φ, stop, after⟩
    · rw [hread] at hrun
      obtain rfl : e'' = e' := Except.error.inj hrun
      have hsome := ParseError.isSome_trail?_iff.mpr he
      rw [ParseError.trail?_within, Option.isSome_map] at hsome
      obtain ⟨opened, closed, after, hdrop, -, htrailed⟩ := (faults_of_readFormula hread).trailed hsome
      exact ⟨opened, closed, after, hdrop, htrailed⟩
    · -- a formula has been read, and the text does not end behind it
      obtain ⟨ts, hts, hpos, hφ, -, hstop⟩ := derives_of_readFormula hread
      dsimp only [Cursor.ofTokens] at hts hpos hstop
      rw [hread, ParseResult.andThen_ok, ParseResult.mapValue_eq_error_iff] at hrun
      obtain ⟨hpos', htrail⟩ := Cursor.expect_eq_error hrun
      refine ⟨[], ts, after, hts, ?_, htrail, hφ.openRules hstop,
        .inr (hφ.behindFormula (by simp) (.inl rfl))⟩
      rw [hpos', hpos, List.length_nil, Nat.zero_add]
  have htrail : (e'.within "formula").trail? = some (rulesOf opened ++ ["formula"]) := by
    rw [ParseError.trail?_within, htrailed.trail]
    rfl
  exact ⟨opened, closed, after, hdrop, by rw [ParseError.pos_within, htrailed.pos_eq], htrail,
    ParseError.exists_message_eq htrail (by simp), htrailed.rules, htrailed.kind⟩

/-- The symbols of `~(p & (q) r`. -/
def leftOpen : List Token :=
  [.operator (.unary .negation), .bracket .opening, .var "p", .operator (.binary .conjunction),
    .bracket .opening, .var "q", .bracket .closing, .var "r"]

/-- In `~(p & (q) r` the inner parenthesis has been closed and the conjunction has its operand, so
only the outer parenthesis and the negation before it are open at `r`. -/
theorem wholeFormula_error_trail_leftOpen :
    (Parser.wholeFormula 5).runAt leftOpen 0 = .error (.unexpectedToken "')'" (.var "r") 7
      ["parenthesized formula", "unary formula", "formula"]) ∧
    ∃ opened closed, leftOpen = opened ++ (closed ++ [.var "r"]) ∧
      rulesOf opened = ["parenthesized formula", "unary formula"] ∧
      OpenRules opened closed [.var "r"] := by
  have hrun : (Parser.wholeFormula 5).runAt leftOpen 0 = .error (.unexpectedToken "')'" (.var "r")
      7 ["parenthesized formula", "unary formula", "formula"]) := by rfl
  obtain ⟨opened, closed, after, hdrop, hpos, htrail, -, hrules, -⟩ :=
    wholeFormula_error_trail hrun (by nofun)
  rw [List.drop_zero, ← List.append_assoc] at hdrop
  have hlen : (opened ++ closed).length = 7 := by
    rw [List.length_append]
    exact (hpos.trans (Nat.zero_add _)).symm
  obtain rfl : after = [.var "r"] := by
    have hafter := congrArg (List.drop 7) hdrop
    rw [← hlen, List.drop_left, hlen] at hafter
    exact hafter.symm
  have hopened : ["parenthesized formula", "unary formula"] ++ ["formula"]
      = rulesOf opened ++ ["formula"] := Option.some.inj htrail
  exact ⟨hrun, opened, closed, by rw [hdrop, List.append_assoc],
    (List.append_cancel_right hopened).symm, hrules⟩

end TrustLogic
