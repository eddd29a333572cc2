import TrustLogic.Formula.Basic
import TrustLogic.Text.Letter
import TrustLogic.Text.Place

/-!
# Tokens

The symbols of a written formula: variables, operators, brackets, and a mark for the end of the
text.

* `Token` – the symbols, with `Token.literal`, the text a symbol is written as, and `Token.text`,
  the way messages and listings mention it.
* `Operator.scan?`, `Bracket.scan?`, `Token.scan?` – the symbol at the beginning of a text, with
  what follows it. A symbol of two characters is read whole or not at all.
* `Token.scan?_eq_some` – a symbol that is read stands at the beginning of the text, letter for
  letter; `Token.literal_ne_nil_of_scan?` – it is not empty.
-/

namespace TrustLogic

/-! ### Symbols -/

/-- The parentheses that group a subformula. -/
inductive Bracket
  | opening
  | closing
deriving DecidableEq, Repr

/-- How a bracket is written. -/
def Bracket.symbol : Bracket → String
  | opening => "("
  | closing => ")"

/-- A symbol of a written formula. -/
inductive Token
  /-- A propositional variable. -/
  | var (name : String)
  /-- An operator. -/
  | operator (op : Operator)
  /-- A bracket. -/
  | bracket (b : Bracket)
  /-- The end of the text. -/
  | eof
deriving DecidableEq, Repr

namespace Token

/-- The text a symbol is written as; the end of the text is written as nothing. -/
def literal : Token → String
  | var name => name
  | operator op => op.symbol
  | bracket b => b.symbol
  | eof => ""

/-- How messages and listings mention a symbol. -/
def text : Token → String
  | eof => "EOF"
  | t => "'" ++ t.literal ++ "'"

end Token

/-! ### The symbol at the beginning of a text -/

/-- The operator a text begins with, and the text after it. -/
def Operator.scan? : List Char → Option (Operator × List Char)
  | '-' :: '>' :: rest => some (.binary .implication, rest)
  | '-' :: '<' :: rest => some (.binary .coimplication, rest)
  | '[' :: ']' :: rest => some (.unary (.modal .box), rest)
  | '<' :: '>' :: rest => some (.unary (.modal .diamond), rest)
  | '&' :: rest => some (.binary .conjunction, rest)
  | '|' :: rest => some (.binary .disjunction, rest)
  | '~' :: rest => some (.unary .negation, rest)
  | _ => none

/-- The operator that is written as the whole of a text. -/
def Operator.ofText? (s : String) : Option Operator :=
  match Operator.scan? s.toList with
  | some (op, []) => some op
  | _ => none

/-- The bracket a text begins with, and the text after it. -/
def Bracket.scan? : List Char → Option (Bracket × List Char)
  | '(' :: rest => some (.opening, rest)
  | ')' :: rest => some (.closing, rest)
  | _ => none

/-- The bracket that is written as the whole of a text. -/
def Bracket.ofText? (s : String) : Option Bracket :=
  match Bracket.scan? s.toList with
  | some (b, []) => some b
  | _ => none

/-- The variable a text begins with: a single letter, whatever follows. -/
def Token.scanVar? : List Char → Option (Token × List Char)
  | [] => none
  | c :: rest => if isLetter c then some (.var (String.singleton c), rest) else none

/-- The symbol a text begins with, and the text after it. -/
def Token.scan? (cs : List Char) : Option (Token × List Char) :=
  match Token.scanVar? cs with
  | some found => some found
  | none =>
    match Operator.scan? cs with
    | some (op, rest) => some (.operator op, rest)
    | none => (Bracket.scan? cs).map fun found => (.bracket found.1, found.2)

theorem Operator.scan?_eq_some {cs rest : List Char} {op : Operator}
    (h : Operator.scan? cs = some (op, rest)) : cs = op.symbol.toList ++ rest := by
  unfold Operator.scan? at h
  split at h <;> simp_all <;> obtain ⟨rfl, rfl⟩ := h <;> rfl

theorem Bracket.scan?_eq_some {cs rest : List Char} {b : Bracket}
    (h : Bracket.scan? cs = some (b, rest)) : cs = b.symbol.toList ++ rest := by
  unfold Bracket.scan? at h
  split at h <;> simp_all <;> obtain ⟨rfl, rfl⟩ := h <;> rfl

theorem Operator.symbol_ne_nil (op : Operator) : op.symbol.toList ≠ [] := by
  rcases op with (_ | _ | _) | (_ | _ | _ | _) <;>
    simp [Operator.symbol, Unary.symbol, Modality.symbol, Binary.symbol]

theorem Bracket.symbol_ne_nil (b : Bracket) : b.symbol.toList ≠ [] := by
  cases b <;> simp [Bracket.symbol]

namespace Token

theorem scanVar?_eq_some {cs rest : List Char} {t : Token} (h : scanVar? cs = some (t, rest)) :
    ∃ c, isLetter c ∧ t = .var (String.singleton c) ∧ cs = c :: rest := by
  cases cs with
  | nil => simp [scanVar?] at h
  | cons c cs =>
    by_cases hc : isLetter c <;> simp [scanVar?, hc] at h
    exact ⟨c, hc, h.1.symm, by rw [h.2]⟩

theorem scan?_eq_some {cs rest : List Char} {t : Token} (h : scan? cs = some (t, rest)) :
    cs = t.literal.toList ++ rest := by
  unfold scan? at h
  split at h
  · next hv =>
    obtain rfl := Option.some.inj h
    obtain ⟨c, -, rfl, rfl⟩ := scanVar?_eq_some hv
    simp [literal]
  · split at h
    · next ho =>
      obtain ⟨rfl, rfl⟩ := Prod.mk.inj (Option.some.inj h)
      exact Operator.scan?_eq_some ho
    · obtain ⟨⟨b, rest'⟩, hb, hp⟩ := Option.map_eq_some_iff.1 h
      obtain ⟨rfl, rfl⟩ := Prod.mk.inj hp
      exact Bracket.scan?_eq_some hb

theorem literal_ne_nil_of_scan? {cs rest : List Char} {t : Token}
    (h : scan? cs = some (t, rest)) : t.literal.toList ≠ [] := by
  unfold scan? at h
  split at h
  · next hv =>
    obtain rfl := Option.some.inj h
    obtain ⟨c, -, rfl, -⟩ := scanVar?_eq_some hv
    simp [literal]
  · split at h
    · obtain ⟨rfl, -⟩ := Prod.mk.inj (Option.some.inj h)
      exact Operator.symbol_ne_nil _
    · obtain ⟨⟨b, rest'⟩, -, hp⟩ := Option.map_eq_some_iff.1 h
      obtain ⟨rfl, -⟩ := Prod.mk.inj hp
      exact Bracket.symbol_ne_nil _

end Token

end TrustLogic
