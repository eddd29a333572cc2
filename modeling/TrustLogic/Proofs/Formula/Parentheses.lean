import TrustLogic.Proofs.Formula.RoundTrip

/-!
# Formulas without parentheses

Parentheses group a subformula, but the grammar leaves them nothing to group. The left operand of a
binary operator is a variable, and what stands behind a unary or a binary operator is all of it the
operand, so a subformula always goes on to the end of the text. This file says that the parentheses
can therefore be left out of a text, all of them, without a change of the formula that it denotes.

* `TrustLogic.bare` – the tokens without the parentheses; `TrustLogic.Formula.reading` – a formula
  read back from its tree, each operator before its operand or between its operands. The one is the
  other for every sentence (`TrustLogic.Derives.bare_eq_reading`), so nothing but parentheses can
  tell the sentences of a formula apart.
* `TrustLogic.Derives.derives_bare` – what is left without the parentheses is a sentence of the same
  formula, and it opens no more levels.
* `TrustLogic.Derives.exists_closing` – behind a closing parenthesis there is nothing but others.
* `TrustLogic.withoutParentheses` – the same for texts, where characters are taken out. No literal
  but those of the parentheses has such a character, and what stood on either side of one are two
  literals still (`TrustLogic.Layout.spells_bare`).

All of this fails for a grammar that goes on behind a closing parenthesis, be it with a binary
operator only.
-/

namespace TrustLogic

/-! ### Tokens -/

/-- Whether a token is a parenthesis. -/
def Token.isBracket : Token → Bool
  | .bracket _ => true
  | _ => false

/-- **The tokens without the parentheses** among them. -/
def bare (ts : List Token) : List Token :=
  ts.filter fun t => !t.isBracket

section Bare

variable (ts us : List Token)

@[simp] theorem bare_var (name : String) : bare (.var name :: ts) = .var name :: bare ts := rfl

@[simp] theorem bare_operator (op : Operator) :
    bare (.operator op :: ts) = .operator op :: bare ts := rfl

@[simp] theorem bare_bracket (b : Bracket) : bare (.bracket b :: ts) = bare ts := rfl

@[simp] theorem bare_append : bare (ts ++ us) = bare ts ++ bare us :=
  List.filter_append ts us

/-- Without the parentheses there are no more levels than with them. -/
theorem levels_bare_le : levels (bare ts) ≤ levels ts := by
  have hsub : (bare ts).Sublist ts := List.filter_sublist
  have hops := hsub.countP_le (p := Token.isOperator)
  have hopens := hsub.count_le (.bracket .opening)
  rw [levels, levels]
  omega

end Bare

/-! ### Sentences -/

/-- **A formula read back from its tree**: a unary operator before what its operand is read back as,
and a binary operator between its operands. -/
def Formula.reading : Formula → List Token
  | var name => [.var name]
  | unary op φ => .operator (.unary op) :: φ.reading
  | binary op φ ψ => φ.reading ++ .operator (.binary op) :: ψ.reading

namespace Derives

variable {ts us : List Token} {φ ψ : Formula}

/-- **Every sentence of a formula is the formula read back**, but for the parentheses. -/
theorem bare_eq_reading (h : Derives ts φ) : bare ts = φ.reading := by
  induction h with
  | unary op _ ih => rw [bare_operator, ih, Formula.reading]
  | var name => rfl
  | binary name op _ ih => rw [bare_var, bare_operator, ih]; rfl
  | @between ts φ _ ih =>
    have hclosing : bare [.bracket .closing] = [] := rfl
    rw [bare_bracket, bare_append, hclosing, List.append_nil, ih]

/-- **The parentheses can be left out**: the tokens without them derive the same formula. -/
theorem derives_bare (h : Derives ts φ) : Derives (bare ts) φ := by
  rw [h.bare_eq_reading]
  -- the formula has the shape in which it can be read back without parentheses
  have hshape := h.rightNested
  clear h
  induction hshape with
  | var name => exact .var name
  | unary op _ ih => exact .unary op ih
  | binary op name _ ih => exact .binary name op ih

/-- **The formulas of two sentences are the same** if nothing but parentheses tells the sentences
apart. -/
theorem eq_iff_bare_eq (hφ : Derives ts φ) (hψ : Derives us ψ) :
    φ = ψ ↔ bare ts = bare us := by
  constructor
  · rintro rfl
    rw [hφ.bare_eq_reading, hψ.bare_eq_reading]
  · intro h
    have hφ' := hφ.derives_bare
    rw [h] at hφ'
    exact hφ'.unique hψ.derives_bare

/-- **The closing parentheses stand together at the end**, behind a variable, and there are as many
of them as opening ones. -/
theorem exists_front (h : Derives ts φ) :
    ∃ (front : List Token) (name : String),
      ts = front ++ .var name ::
        List.replicate (front.count (.bracket .opening)) (.bracket .closing) ∧
      .bracket .closing ∉ front := by
  induction h with
  | @unary op ts φ _ ih =>
    obtain ⟨front, name, rfl, hfront⟩ := ih
    exact ⟨.operator (.unary op) :: front, name, by simp, by simpa using hfront⟩
  | var name => exact ⟨[], name, rfl, by simp⟩
  | @binary name op ts φ _ ih =>
    obtain ⟨front, name', rfl, hfront⟩ := ih
    exact ⟨.var name :: .operator (.binary op) :: front, name', by simp, by simpa using hfront⟩
  | @between ts φ _ ih =>
    obtain ⟨front, name, rfl, hfront⟩ := ih
    refine ⟨.bracket .opening :: front, name, ?_, by simpa using hfront⟩
    rw [List.count_cons_self, List.replicate_succ', List.cons_append, List.append_assoc,
      List.cons_append]

theorem exists_closing (h : Derives ts φ) :
    ∃ (body : List Token) (k : Nat),
      ts = body ++ List.replicate k (.bracket .closing) ∧ .bracket .closing ∉ body := by
  obtain ⟨front, name, hts, hfront⟩ := h.exists_front
  exact ⟨front ++ [.var name], _, by rw [hts, List.append_cons], by simpa using hfront⟩

end Derives

/-! ### Texts -/

/-- Whether a character is a parenthesis. -/
def isParenthesis (c : Char) : Bool := c = '(' || c = ')'

/-- **A text without its parentheses.** -/
def withoutParentheses (s : String) : String :=
  String.ofList (s.toList.filter fun c => !isParenthesis c)

/-- A class of characters that has neither parenthesis. -/
theorem isParenthesis_eq_false (has : Char → Bool) (hopening : has '(' = false)
    (hclosing : has ')' = false) {c : Char} (hc : has c = true) : isParenthesis c = false := by
  rw [isParenthesis, Bool.or_eq_false_iff, decide_eq_false_iff_not, decide_eq_false_iff_not]
  constructor
  · rintro rfl
    exact absurd hc (Bool.eq_false_iff.mp hopening)
  · rintro rfl
    exact absurd hc (Bool.eq_false_iff.mp hclosing)

theorem filter_eq_self_of_allBlank {gap : List Char} (hgap : AllBlank gap) :
    (gap.filter fun c => !isParenthesis c) = gap := by
  refine List.filter_eq_self.mpr fun c hc => ?_
  rw [isParenthesis_eq_false isBlank (by decide) (by decide) (hgap c hc)]
  rfl

/-- **Only the literals of the parentheses have such a character**, and they have no other. -/
theorem Token.Written.filter_literal {t : Token} (h : t.Written) :
    (t.literal.toList.filter fun c => !isParenthesis c)
      = if t.isBracket then [] else t.literal.toList := by
  cases h with
  | @var c hc =>
    have hletter : isParenthesis c = false :=
      isParenthesis_eq_false isLetter (by decide +kernel) (by decide +kernel) hc
    simp [literal, isBracket, hletter]
  | operator op => rcases op with (_ | _ | _) | (_ | _ | _ | _) <;> rfl
  | bracket b => cases b <;> rfl

/-- **A text without its parentheses spells its symbols without theirs.** -/
theorem Layout.spells_bare {p : Place} {cs : List Char} {ts : List Located} (h : Layout p cs ts) :
    Spells (cs.filter fun c => !isParenthesis c) (bare (ts.map Located.token)) := by
  induction h with
  | @eof p gap hgap =>
    rw [filter_eq_self_of_allBlank hgap]
    have hspells := spells_nil.blanks hgap
    rwa [List.append_nil] at hspells
  | @cons p gap rest t ts hgap ht _ ih =>
    rw [List.filter_append, List.filter_append, filter_eq_self_of_allBlank hgap, ht.filter_literal,
      List.map_cons]
    -- of a parenthesis nothing is left but the blanks before it
    cases ht with
    | var hc => exact (ih.written (.var hc)).blanks hgap
    | operator op => exact (ih.written (.operator op)).blanks hgap
    | bracket b => exact ih.blanks hgap

theorem tokenize_withoutParentheses {s : String} {ts : List Located} (hs : tokenize s = .ok ts) :
    ∃ us, tokenize (withoutParentheses s) = .ok us ∧
      us.map Located.token = bare (ts.map Located.token) :=
  (tokenize_eq_ok_iff.mp hs).spells_bare.tokenize

/-- What a text that denotes a formula consists of: a sentence and the end of the text. -/
theorem exists_sentence_of_ofText {limit : Nat} {s : String} {φ : Formula} {ts : List Located}
    (hs : tokenize s = .ok ts) (h : Formula.ofText limit s = .ok φ) :
    ∃ us, ts.map Located.token = us ++ [.eof] ∧ Derives us φ ∧ levels us ≤ limit := by
  obtain ⟨ts', hs', hφ, hlevels⟩ := ofText_eq_ok_iff.mp h
  obtain rfl : ts = ts' := Except.ok.inj (hs.symm.trans hs')
  obtain ⟨init, rfl, -⟩ := (tokenize_eq_ok_iff.mp hs).eq_append_eof
  rw [List.map_append, List.map_singleton] at hφ hlevels ⊢
  rw [List.dropLast_concat] at hφ hlevels
  exact ⟨_, rfl, hφ, hlevels⟩

theorem ofText_withoutParentheses {limit : Nat} {s : String} {φ : Formula}
    (h : Formula.ofText limit s = .ok φ) : Formula.ofText limit (withoutParentheses s) = .ok φ := by
  obtain ⟨ts, hs, -⟩ := ofText_eq_ok_iff.mp h
  obtain ⟨us, hus, hφ, hlevels⟩ := exists_sentence_of_ofText hs h
  obtain ⟨vs, hvs, hbare⟩ := tokenize_withoutParentheses hs
  refine ofText_eq_ok_iff.mpr ⟨vs, hvs, ?_⟩
  have heof : bare [.eof] = [.eof] := rfl
  rw [hbare, hus, bare_append, heof, List.dropLast_concat]
  exact ⟨hφ.derives_bare, Nat.le_trans (levels_bare_le us) hlevels⟩

/-- **Parentheses never change the formula**, in two parts. Two texts that denote formulas, each
under a limit of its own, denote the same one exactly if their symbols are the same without the
parentheses. For every text that denotes a formula, the symbols without the parentheses are the
formula read back from its tree, with the end of the text after it; all closing parentheses stand
together, directly before the end of the text; and the text without its parentheses denotes the
formula under the same limit. -/
theorem ofText_up_to_parentheses :
    (∀ (limit limit' : Nat) (s s' : String) (φ ψ : Formula) (ts us : List Located),
      tokenize s = .ok ts → tokenize s' = .ok us →
      Formula.ofText limit s = .ok φ → Formula.ofText limit' s' = .ok ψ →
        (φ = ψ ↔ bare (ts.map Located.token) = bare (us.map Located.token))) ∧
    ∀ (limit : Nat) (s : String) (φ : Formula), Formula.ofText limit s = .ok φ →
      (∃ ts, tokenize s = .ok ts ∧
        bare (ts.map Located.token) = φ.reading ++ [.eof] ∧
        ∃ (body : List Token) (k : Nat),
          ts.map Located.token = body ++ List.replicate k (.bracket .closing) ++ [.eof] ∧
          .bracket .closing ∉ body) ∧
      Formula.ofText limit (withoutParentheses s) = .ok φ := by
  have heof : bare [.eof] = [.eof] := rfl
  refine ⟨fun limit limit' s s' φ ψ ts us hs hs' h h' => ?_, fun limit s φ h => ⟨?_, ?_⟩⟩
  · obtain ⟨ts', hts, hφ, -⟩ := exists_sentence_of_ofText hs h
    obtain ⟨us', hus, hψ, -⟩ := exists_sentence_of_ofText hs' h'
    rw [hts, hus, bare_append, bare_append, List.append_left_inj, hφ.eq_iff_bare_eq hψ]
  · obtain ⟨ts, hs, -⟩ := ofText_eq_ok_iff.mp h
    obtain ⟨us, hus, hφ, -⟩ := exists_sentence_of_ofText hs h
    obtain ⟨body, k, hbody, hnone⟩ := hφ.exists_closing
    refine ⟨ts, hs, ?_, body, k, by rw [hus, hbody], hnone⟩
    rw [hus, bare_append, heof, hφ.bare_eq_reading]
  · exact ofText_withoutParentheses h

/-- The conjunction of `p` and the negation of `q`. -/
def withNegation : Formula :=
  .binary .conjunction (.var "p") (.unary .negation (.var "q"))

/-- The symbols of `(p&(~q) )`. -/
def grouped : List Located :=
  [⟨.bracket .opening, 0, 1, 1, 1⟩, ⟨.var "p", 1, 2, 1, 2⟩,
    ⟨.operator (.binary .conjunction), 2, 3, 1, 3⟩, ⟨.bracket .opening, 3, 4, 1, 4⟩,
    ⟨.operator (.unary .negation), 4, 5, 1, 5⟩, ⟨.var "q", 5, 6, 1, 6⟩,
    ⟨.bracket .closing, 6, 7, 1, 7⟩, ⟨.bracket .closing, 8, 9, 1, 9⟩, ⟨.eof, 9, 9, 1, 10⟩]

/-- The symbols of `p&~q `. -/
def ungrouped : List Located :=
  [⟨.var "p", 0, 1, 1, 1⟩, ⟨.operator (.binary .conjunction), 1, 2, 1, 2⟩,
    ⟨.operator (.unary .negation), 2, 3, 1, 3⟩, ⟨.var "q", 3, 4, 1, 4⟩, ⟨.eof, 5, 5, 1, 6⟩]

/-- A text with two pairs of parentheses, under the limit that it needs, and the same without
them. -/
theorem ofText_up_to_parentheses_grouped :
    tokenize "(p&(~q) )" = .ok grouped ∧ tokenize "p&~q " = .ok ungrouped ∧
    Formula.ofText 5 "(p&(~q) )" = .ok withNegation ∧
    Formula.ofText 5 "p&~q " = .ok withNegation ∧
    bare (grouped.map Located.token) = bare (ungrouped.map Located.token) ∧
    ∃ (body : List Token) (k : Nat), grouped.map Located.token
      = body ++ List.replicate k (.bracket .closing) ++ [.eof] ∧ .bracket .closing ∉ body := by
  have hgrouped : tokenize "(p&(~q) )" = .ok grouped := by decide +kernel
  have hungrouped : tokenize "p&~q " = .ok ungrouped := by decide +kernel
  have htext : Formula.ofText 5 "(p&(~q) )" = .ok withNegation := by decide +kernel
  have hwithout : withoutParentheses "(p&(~q) )" = "p&~q " := by decide +kernel
  obtain ⟨hsame, hdenotes⟩ := ofText_up_to_parentheses
  obtain ⟨⟨ts, hts, -, hclosing⟩, hbare⟩ := hdenotes 5 _ _ htext
  rw [hwithout] at hbare
  obtain rfl : ts = grouped := Except.ok.inj (hts.symm.trans hgrouped)
  exact ⟨hgrouped, hungrouped, htext, hbare,
    (hsame 5 5 _ _ _ _ _ _ hgrouped hungrouped htext hbare).mp rfl, hclosing⟩

end TrustLogic
