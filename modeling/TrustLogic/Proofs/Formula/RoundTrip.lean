import TrustLogic.Formula.Printer
import TrustLogic.Proofs.Formula.Grammar
import TrustLogic.Proofs.Token.Spacing

/-!
# Formulas that read back

A formula is shown with parentheses around every binary formula, and it is read by a grammar that
knows no precedence. Two things keep the notation of a formula from denoting this formula again.

* **The shape.** The grammar derives a binary formula only with a variable on the left
  (`TrustLogic.Derives.rightNested`). Other formulas are shown in a notation that is refused, or
  that denotes another formula: the negation of `p`, conjoined with `q`, is shown as `(~p & q)`, in
  which the negation takes the whole conjunction.
* **The limit.** The parentheses open levels of their own, so a formula needs more levels to be read
  from its notation than it may have needed when it was read first. `TrustLogic.Formula.need` counts
  them.

There are no others. `TrustLogic.Formula.symbols` is the list of the symbols in the notation of a
formula, and it stands between the two halves of the argument: the symbols are what the notation
spells, and a formula of the right shape is what they derive.
-/

namespace TrustLogic

namespace Formula

/-! ### The notation as symbols -/

/-- **The names can be read**: the name of every variable is a single letter. -/
inductive WellNamed : Formula → Prop
  /-- A variable with a single letter as its name. -/
  | var {c : Char} (hc : isLetter c = true) : WellNamed (.var (String.singleton c))
  /-- A unary operator before a formula with such names. -/
  | unary (op : Unary) {φ : Formula} (hφ : WellNamed φ) : WellNamed (.unary op φ)
  /-- A binary operator between two of them. -/
  | binary (op : Binary) {φ ψ : Formula} (hφ : WellNamed φ) (hψ : WellNamed ψ) :
    WellNamed (.binary op φ ψ)

/-- **The shape can be read**: the left operand of every binary operator is a variable. -/
inductive RightNested : Formula → Prop
  /-- A variable. -/
  | var (name : String) : RightNested (.var name)
  /-- A unary operator before a formula of this shape. -/
  | unary (op : Unary) {φ : Formula} (hφ : RightNested φ) : RightNested (.unary op φ)
  /-- A binary operator between a variable and a formula of this shape. -/
  | binary (op : Binary) (name : String) {φ : Formula} (hφ : RightNested φ) :
    RightNested (.binary op (.var name) φ)

/-- The symbols in the notation of a formula. -/
def symbols : Formula → List Token
  | var name => [.var name]
  | unary op φ => .operator (.unary op) :: φ.symbols
  | binary op φ ψ =>
    .bracket .opening :: ((φ.symbols ++ .operator (.binary op) :: ψ.symbols) ++ [.bracket .closing])

/-- The number of unary operators in a formula. -/
def unaries : Formula → Nat
  | var _ => 0
  | unary _ φ => φ.unaries + 1
  | binary _ φ ψ => φ.unaries + ψ.unaries

/-- The number of binary operators in a formula. -/
def binaries : Formula → Nat
  | var _ => 0
  | unary _ φ => φ.binaries
  | binary _ φ ψ => φ.binaries + ψ.binaries + 1

/-- **The levels that a formula's notation needs.** A binary operator stands between parentheses,
which open a level too. -/
def need (φ : Formula) : Nat :=
  1 + φ.unaries + 2 * φ.binaries

theorem count_symbols (φ : Formula) :
    φ.symbols.countP Token.isOperator = φ.unaries + φ.binaries ∧
      φ.symbols.count (.bracket .opening) = φ.binaries := by
  induction φ with
  | var name => exact ⟨rfl, rfl⟩
  | unary op φ ih =>
    obtain ⟨hops, hopens⟩ := ih
    refine ⟨?_, ?_⟩
    · rw [symbols, List.countP_cons_of_pos rfl, hops, unaries, binaries]
      omega
    · rw [symbols, List.count_cons_of_ne (by simp), hopens, binaries]
  | binary op φ ψ ihφ ihψ =>
    obtain ⟨hops, hopens⟩ := ihφ
    obtain ⟨hops', hopens'⟩ := ihψ
    simp only [symbols, unaries, binaries]
    refine ⟨?_, ?_⟩
    · rw [List.countP_cons_of_neg (by simp [Token.isOperator]), List.countP_append,
        List.countP_append, List.countP_cons_of_pos rfl, hops, hops',
        List.countP_eq_zero.mpr (by simp [Token.isOperator])]
      omega
    · rw [List.count_cons_self, List.count_append, List.count_append,
        List.count_cons_of_ne (by simp), hopens, hopens', List.count_singleton]
      simp

theorem levels_symbols (φ : Formula) : levels φ.symbols = φ.need := by
  rw [levels, φ.count_symbols.1, φ.count_symbols.2, need]
  omega

/-- **The notation spells the symbols**, before any text that spells others. -/
theorem WellNamed.spells {φ : Formula} (h : φ.WellNamed) {rest : List Char} {ts : List Token}
    (hrest : Spells rest ts) : Spells (φ.renderOnto rest) (φ.symbols ++ ts) := by
  induction h generalizing rest ts with
  | @var c hc =>
    have hvar := hrest.written (.var hc)
    rw [renderOnto, symbols]
    simpa only [Token.literal, List.singleton_append] using hvar
  | @unary op φ hφ ih =>
    rw [renderOnto, symbols]
    exact (ih hrest).written (.operator (.unary op))
  | @binary op φ ψ hφ hψ ihφ ihψ =>
    -- the text is put together from its end, as the notation is
    have hspace : isBlank ' ' = true := by decide
    have hclosing := hrest.written (.bracket .closing)
    have hright := ((ihψ hclosing).blank hspace).written (.operator (.binary op))
    have hleft := (ihφ (hright.blank hspace)).written (.bracket .opening)
    have hopen : Bracket.opening.symbol.toList = ['('] := rfl
    have hclose : Bracket.closing.symbol.toList = [')'] := rfl
    rw [renderOnto, symbols]
    simpa only [hopen, hclose, Token.literal, Operator.symbol, List.cons_append, List.nil_append,
      List.append_assoc] using hleft

/-- The symbols of the notation are those of the formula, with the end of the text after them. -/
theorem WellNamed.tokenize_render {φ : Formula} (h : φ.WellNamed) :
    ∃ ts, tokenize φ.render = .ok ts ∧ ts.map Located.token = φ.symbols ++ [.eof] :=
  (h.spells spells_nil).tokenize

/-! ### What the grammar derives -/

theorem RightNested.derives {φ : Formula} (h : φ.RightNested) : Derives φ.symbols φ := by
  induction h with
  | var name => exact .var name
  | unary op _ ih => exact .unary op ih
  | binary op name _ ih => exact .between (.binary name op ih)

end Formula

/-- **The grammar derives formulas of one shape only.** -/
theorem Derives.rightNested {ts : List Token} {φ : Formula} (h : Derives ts φ) :
    φ.RightNested := by
  induction h with
  | unary op _ ih => exact .unary op ih
  | var name => exact .var name
  | binary name op _ ih => exact .binary op name ih
  | between _ ih => exact ih

theorem Derives.wellNamed {ts : List Token} {φ : Formula} (h : Derives ts φ)
    (hts : ∀ t ∈ ts, t.Written) : φ.WellNamed := by
  -- a variable can be written only if its name is a letter
  have hvar : ∀ name, Token.Written (.var name) → Formula.WellNamed (.var name) := by
    intro name hname
    cases hname with
    | var hc => exact .var hc
  induction h with
  | unary op _ ih => exact .unary op (ih fun t ht => hts t (List.mem_cons_of_mem _ ht))
  | var name => exact hvar name (hts _ (List.mem_singleton_self _))
  | binary name op _ ih =>
    refine .binary op (hvar name (hts _ (List.mem_cons_self ..))) (ih fun t ht => hts t ?_)
    exact List.mem_cons_of_mem _ (List.mem_cons_of_mem _ ht)
  | between _ ih => exact ih fun t ht => hts t (List.mem_cons_of_mem _ (List.mem_append_left _ ht))

namespace Formula

/-- What is read from a text can be shown so that it reads back. -/
theorem wellNamed_rightNested_of_ofText {limit : Nat} {s : String} {φ : Formula}
    (h : ofText limit s = .ok φ) : φ.WellNamed ∧ φ.RightNested := by
  obtain ⟨ts, hs, hφ, -⟩ := ofText_eq_ok_iff.mp h
  obtain ⟨init, rfl, hinit⟩ := (tokenize_eq_ok_iff.mp hs).eq_append_eof
  refine ⟨hφ.wellNamed fun t ht => ?_, hφ.rightNested⟩
  rw [List.map_append, List.map_singleton, List.dropLast_concat] at ht
  obtain ⟨u, hu, rfl⟩ := List.mem_map.mp ht
  exact hinit u hu

/-! ### Reading back -/

theorem ofText_render_of_need_le {φ : Formula} (hnames : φ.WellNamed) (hshape : φ.RightNested)
    {limit : Nat} (hlimit : φ.need ≤ limit) : ofText limit φ.render = .ok φ := by
  obtain ⟨ts, hs, hts⟩ := hnames.tokenize_render
  refine ofText_eq_ok_iff.mpr ⟨ts, hs, ?_⟩
  rw [hts, List.dropLast_concat, levels_symbols]
  exact ⟨hshape.derives, hlimit⟩

theorem ofText_render_of_lt_need {φ : Formula} (hnames : φ.WellNamed) (hshape : φ.RightNested)
    {limit : Nat} (hlimit : limit < φ.need) :
    ∃ pos span, ofText limit φ.render = .error (.parse (.tooDeep limit pos) span) := by
  obtain ⟨ts, hs, hts⟩ := hnames.tokenize_render
  rw [← levels_symbols] at hlimit
  exact ofText_of_lt_levels hs hts hshape.derives hlimit

/-- **Which formulas read back**, in three parts. A formula whose binary operators all have a
variable on the left is read from its own notation exactly if the limit admits the levels that it
needs, and is refused for its depth otherwise. Other formulas are never read from their own
notation. The formulas that can be read, from any text and under some limit, are those of the first
part. -/
theorem ofText_render_exact :
    (∀ φ : Formula, φ.WellNamed → φ.RightNested → ∀ limit,
      (φ.need ≤ limit → ofText limit φ.render = .ok φ) ∧
      (limit < φ.need →
        ∃ pos span, ofText limit φ.render = .error (.parse (.tooDeep limit pos) span))) ∧
    (∀ φ : Formula, φ.WellNamed → ¬ φ.RightNested → ∀ limit, ofText limit φ.render ≠ .ok φ) ∧
    ∀ φ : Formula, (∃ limit s, ofText limit s = .ok φ) ↔ φ.WellNamed ∧ φ.RightNested := by
  refine ⟨?_, ?_, ?_⟩
  · intro φ hnames hshape limit
    exact ⟨ofText_render_of_need_le hnames hshape, ofText_render_of_lt_need hnames hshape⟩
  · intro φ _ hshape limit hread
    exact hshape (wellNamed_rightNested_of_ofText hread).2
  · intro φ
    constructor
    · rintro ⟨limit, s, hread⟩
      exact wellNamed_rightNested_of_ofText hread
    · rintro ⟨hnames, hshape⟩
      exact ⟨φ.need, φ.render, ofText_render_of_need_le hnames hshape (Nat.le_refl _)⟩

/-- The threshold for `(p -> []q)` is one level above that for `p -> []q`, and the notation of a
conjunction with a negation on the left is not read as that conjunction under any limit. -/
theorem ofText_render_thresholds :
    (binary .implication (var "p") (unary (.modal .box) (var "q"))).render = "(p -> []q)" ∧
    ofText 4 (binary .implication (var "p") (unary (.modal .box) (var "q"))).render
      = .ok (binary .implication (var "p") (unary (.modal .box) (var "q"))) ∧
    (∃ pos span, ofText 3 (binary .implication (var "p") (unary (.modal .box) (var "q"))).render
      = .error (.parse (.tooDeep 3 pos) span)) ∧
    ∀ limit, ofText limit (binary .conjunction (unary .negation (var "p")) (var "q")).render
      ≠ .ok (binary .conjunction (unary .negation (var "p")) (var "q")) := by
  have hp : WellNamed (var "p") := .var (c := 'p') (by decide +kernel)
  have hq : WellNamed (var "q") := .var (c := 'q') (by decide +kernel)
  obtain ⟨hexact, hnever, -⟩ := ofText_render_exact
  obtain ⟨hread, -⟩ := hexact _ (.binary .implication hp (.unary (.modal .box) hq))
    (.binary .implication "p" (.unary (.modal .box) (.var "q"))) 4
  obtain ⟨-, hrefused⟩ := hexact _ (.binary .implication hp (.unary (.modal .box) hq))
    (.binary .implication "p" (.unary (.modal .box) (.var "q"))) 3
  refine ⟨rfl, hread (by decide), hrefused (by decide), ?_⟩
  refine hnever _ (.binary .conjunction (.unary .negation hp) hq) ?_
  rintro ⟨⟩

end Formula

end TrustLogic
