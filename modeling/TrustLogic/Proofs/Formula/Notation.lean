import TrustLogic.Proofs.Formula.RoundTrip

/-!
# Formulas with the same notation

Not every formula can be read back from its notation, since the grammar knows no precedence and
wants a variable on the left of a binary operator. The notation denotes one formula all the same.
Whoever knows that every binary formula stands between parentheses can tell the formula from it, and
this is true of all shapes of formulas, those included that no text is ever read as.

The argument cannot go through the reader, which refuses these notations or takes them for other
formulas. It goes along the text instead. A notation is a literal and what comes behind it, and the
literals form a prefix code, so two notations at the beginning of one text begin with the same
symbol. This symbol tells the formulas' kind, and where the first part of the one formula ends, the
first part of the other one ends too. The last point is why `TrustLogic.Formula.WellNamed.renderOnto_inj`
is about notations with anything behind them: without it nothing would be known of where the left
operand ends.

The names have to be single letters. A variable of the name `~p` has the same notation as the
negation of `p`.
-/

namespace TrustLogic

/-- **Two literals at the beginning of one text are the same**, as neither is the beginning of the
other one. -/
theorem Token.Written.literal_inj {t u : Token} (ht : t.Written) (hu : u.Written)
    {rest rest' : List Char} (h : t.literal.toList ++ rest = u.literal.toList ++ rest') :
    t = u ∧ rest = rest' := by
  have hscan := scan?_eq_some_iff.mpr ⟨hu, h⟩
  rw [scan?_eq_some_iff.mpr ⟨ht, rfl⟩] at hscan
  exact Prod.mk.inj (Option.some.inj hscan)

namespace Formula

/-! ### What a notation begins with -/

/-- The symbol that the notation of a formula begins with. -/
def front : Formula → Token
  | var name => .var name
  | unary op _ => .operator (.unary op)
  | binary .. => .bracket .opening

/-- What comes in the notation of a formula behind its first symbol, in front of the given text. -/
def behindFront : Formula → List Char → List Char
  | var _, rest => rest
  | unary _ φ, rest => φ.renderOnto rest
  | binary op φ ψ, rest =>
    φ.renderOnto (' ' :: ((Token.operator (.binary op)).literal.toList ++
      ' ' :: ψ.renderOnto (')' :: rest)))

theorem renderOnto_eq (φ : Formula) (rest : List Char) :
    φ.renderOnto rest = φ.front.literal.toList ++ φ.behindFront rest := by
  cases φ with
  | var name => rfl
  | unary op φ => rfl
  | binary op φ ψ =>
    have hopen : (Token.bracket .opening).literal.toList = ['('] := rfl
    rw [renderOnto, front, hopen]
    rfl

theorem WellNamed.written_front {φ : Formula} (h : φ.WellNamed) : φ.front.Written := by
  cases h with
  | var hc => exact .var hc
  | unary op hφ => exact .operator (.unary op)
  | binary op hφ hψ => exact .bracket .opening

/-! ### One notation, one formula -/

/-- **The notations form a prefix code**: a text begins with the notation of one formula at most,
whatever the shape of the formulas. -/
theorem WellNamed.renderOnto_inj {φ ψ : Formula} (hφ : φ.WellNamed) (hψ : ψ.WellNamed)
    {rest rest' : List Char} (h : φ.renderOnto rest = ψ.renderOnto rest') :
    φ = ψ ∧ rest = rest' := by
  induction hφ generalizing ψ rest rest' with
  | @var c hc =>
    rw [renderOnto_eq, ψ.renderOnto_eq] at h
    obtain ⟨hfront, hbehind⟩ := Token.Written.literal_inj (.var hc) hψ.written_front h
    cases hψ with
    | @var d hd => exact ⟨congrArg Formula.var (Token.var.inj hfront), hbehind⟩
    | unary op' hψ => cases hfront
    | binary op' hψ₁ hψ₂ => cases hfront
  | @unary op φ hφ ih =>
    rw [renderOnto_eq, ψ.renderOnto_eq] at h
    obtain ⟨hfront, hbehind⟩ := Token.Written.literal_inj (.operator _) hψ.written_front h
    cases hψ with
    | var hd => cases hfront
    | @unary op' ψ hψ =>
      cases hfront
      obtain ⟨rfl, hrest⟩ := ih hψ hbehind
      exact ⟨rfl, hrest⟩
    | binary op' hψ₁ hψ₂ => cases hfront
  | @binary op φ₁ φ₂ hφ₁ hφ₂ ih₁ ih₂ =>
    rw [renderOnto_eq, ψ.renderOnto_eq] at h
    obtain ⟨hfront, hbehind⟩ := Token.Written.literal_inj (.bracket _) hψ.written_front h
    cases hψ with
    | var hd => cases hfront
    | unary op' hψ => cases hfront
    | @binary op' ψ₁ ψ₂ hψ₁ hψ₂ =>
      -- the left operands end at the same place, and so the operators begin at the same place
      obtain ⟨rfl, hspace⟩ := ih₁ hψ₁ hbehind
      obtain ⟨hop, hright⟩ := Token.Written.literal_inj (.operator _) (.operator _)
        (List.cons.inj hspace).2
      cases hop
      obtain ⟨rfl, hclosing⟩ := ih₂ hψ₂ (List.cons.inj hright).2
      exact ⟨rfl, (List.cons.inj hclosing).2⟩

/-- **Formulas with the same notation are equal**, whatever their shape, as long as the names of
their variables are single letters. -/
theorem render_eq_render_iff {φ ψ : Formula} (hφ : φ.WellNamed) (hψ : ψ.WellNamed) :
    φ.render = ψ.render ↔ φ = ψ := by
  constructor
  · intro h
    have hchars : φ.renderOnto [] = ψ.renderOnto [] := String.ofList_inj.mp h
    exact (hφ.renderOnto_inj hψ hchars).1
  · rintro rfl
    rfl

/-- A conjunction with a negation on the left and the negation of a conjunction are told apart by
their notations, though both notations are read as the latter. A variable of the name `~p` is not
told from the negation of `p`. -/
theorem render_eq_render_iff_negations :
    (binary .conjunction (unary .negation (var "p")) (var "q")).render = "(~p & q)" ∧
    (unary .negation (binary .conjunction (var "p") (var "q"))).render = "~(p & q)" ∧
    (binary .conjunction (unary .negation (var "p")) (var "q")).render
      ≠ (unary .negation (binary .conjunction (var "p") (var "q"))).render ∧
    (var "~p").render = (unary .negation (var "p")).render := by
  have hp : WellNamed (var "p") := .var (c := 'p') (by decide +kernel)
  have hq : WellNamed (var "q") := .var (c := 'q') (by decide +kernel)
  have hleft : WellNamed (binary .conjunction (unary .negation (var "p")) (var "q")) :=
    .binary .conjunction (.unary .negation hp) hq
  have hright : WellNamed (unary .negation (binary .conjunction (var "p") (var "q"))) :=
    .unary .negation (.binary .conjunction hp hq)
  refine ⟨rfl, rfl, ?_, rfl⟩
  rw [ne_eq, render_eq_render_iff hleft hright]
  exact Formula.noConfusion

end Formula

end TrustLogic
