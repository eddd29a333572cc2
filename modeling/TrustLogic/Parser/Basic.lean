import TrustLogic.Text.Quoted
import TrustLogic.Token.Basic

/-!
# Reading formulas from tokens

The grammar of formulas has one rule and no precedence:

* a unary operator takes the whole formula after it as its operand;
* a variable is a formula, and with a binary operator and a formula after it a larger one, so that
  chains of binary operators nest to the right and the left operand is always a variable;
* a formula between parentheses is a formula.

How deep the rule may nest is limited. `readFormula` counts the levels that are left, so the limit
is also what makes the reading end.

* `Cursor` – a position in a list of tokens, with the tokens from there on.
* `ParseError` – the faults. A fault that is about a token carries a trail: the names of the rules
  that were being read, innermost first.
* `readFormula` – the formula at a cursor, and the cursor after it.
-/

namespace TrustLogic

/-! ### Positions and faults -/

/-- A position in a list of tokens. -/
structure Cursor where
  /-- The number of tokens before the position. -/
  pos : Nat
  /-- The tokens from the position on. -/
  rest : List Token
deriving DecidableEq, Repr

namespace Cursor

/-- The given position of a list of tokens; beyond its end nothing remains. -/
def ofTokens (tokens : List Token) (pos : Nat) : Cursor := ⟨pos, tokens.drop pos⟩

end Cursor

/-- Why a list of tokens is refused. -/
inductive ParseError
  /-- The list ends where something was expected. -/
  | unexpectedEnd (expected : String) (pos : Nat) (trail : List String)
  /-- Another token stands where something was expected. -/
  | unexpectedToken (expected : String) (found : Token) (pos : Nat) (trail : List String)
  /-- The formula nests deeper than the limit. -/
  | tooDeep (limit pos : Nat)
deriving DecidableEq, Repr

namespace ParseError

/-- The position at which the fault was found. -/
def pos : ParseError → Nat
  | unexpectedEnd _ p _ => p
  | unexpectedToken _ _ p _ => p
  | tooDeep _ p => p

/-- The fault as seen from the rule around it. The limit is a property of the whole formula and not
of the place where it is hit, so it has no trail. -/
def within (label : String) : ParseError → ParseError
  | unexpectedEnd expected p trail => unexpectedEnd expected p (trail ++ [label])
  | unexpectedToken expected found p trail => unexpectedToken expected found p (trail ++ [label])
  | tooDeep limit p => tooDeep limit p

/-- A trail as messages show it. -/
def trailText : List String → String
  | [] => "None"
  | trail => "Some(" ++ quote (" -> ".intercalate trail) ++ ")"

/-- The fault as a message. -/
def message : ParseError → String
  | unexpectedEnd expected p trail =>
    s!"Unexpected EOF: expected {expected} at position {p}, context: {trailText trail}"
  | unexpectedToken expected found p trail =>
    s!"Unexpected token: expected {expected}, found {found.text} at position {p}, "
      ++ s!"context: {trailText trail}"
  | tooDeep limit p => s!"Formula nesting exceeds the maximum depth of {limit} at position {p}"

@[simp] theorem pos_within (label : String) (e : ParseError) : (e.within label).pos = e.pos := by
  cases e <;> rfl

end ParseError

/-- What reading something at a cursor gives: a fault, or a value and the cursor after it. -/
abbrev ParseResult (α : Type) := Except ParseError (α × Cursor)

namespace ParseResult

variable {α β : Type}

/-- The result as seen from the rule around it. -/
def within (label : String) (r : ParseResult α) : ParseResult α :=
  r.mapError (·.within label)

/-- The result with another value. -/
def mapValue (f : α → β) (r : ParseResult α) : ParseResult β :=
  r.map fun found => (f found.1, found.2)

/-- The result of reading on. -/
def andThen (r : ParseResult α) (f : α → Cursor → ParseResult β) : ParseResult β :=
  r.bind fun found => f found.1 found.2

@[simp] theorem within_ok (label : String) (found : α × Cursor) :
    within label (.ok found : ParseResult α) = .ok found := rfl

@[simp] theorem within_error (label : String) (e : ParseError) :
    within label (.error e : ParseResult α) = .error (e.within label) := rfl

@[simp] theorem mapValue_ok (f : α → β) (a : α) (c : Cursor) :
    mapValue f (.ok (a, c)) = .ok (f a, c) := rfl

@[simp] theorem mapValue_error (f : α → β) (e : ParseError) :
    mapValue f (.error e) = .error e := rfl

@[simp] theorem andThen_ok (a : α) (c : Cursor) (f : α → Cursor → ParseResult β) :
    andThen (.ok (a, c)) f = f a c := rfl

@[simp] theorem andThen_error (e : ParseError) (f : α → Cursor → ParseResult β) :
    andThen (.error e) f = .error e := rfl

theorem within_eq_ok_iff {label : String} {r : ParseResult α} {found : α × Cursor} :
    r.within label = .ok found ↔ r = .ok found := by
  cases r <;> simp

theorem mapValue_eq_ok_iff {f : α → β} {r : ParseResult α} {b : β} {c : Cursor} :
    r.mapValue f = .ok (b, c) ↔ ∃ a, r = .ok (a, c) ∧ f a = b := by
  rcases r with e | ⟨a, c'⟩
  · simp
  · constructor
    · intro h
      obtain ⟨rfl, rfl⟩ := Prod.mk.inj (Except.ok.inj h)
      exact ⟨a, rfl, rfl⟩
    · rintro ⟨a', h, rfl⟩
      obtain ⟨rfl, rfl⟩ := Prod.mk.inj (Except.ok.inj h)
      rfl

theorem andThen_eq_ok_iff {r : ParseResult α} {f : α → Cursor → ParseResult β}
    {found : β × Cursor} : r.andThen f = .ok found ↔ ∃ a c, r = .ok (a, c) ∧ f a c = .ok found := by
  rcases r with e | ⟨a, c⟩
  · simp
  · constructor
    · exact fun h => ⟨a, c, rfl, h⟩
    · rintro ⟨a', c', h, hf⟩
      obtain ⟨rfl, rfl⟩ := Prod.mk.inj (Except.ok.inj h)
      exact hf

end ParseResult

namespace Cursor

/-- Reads one token, which must have a value; `expected` describes the tokens that have one. -/
def take {α : Type} (c : Cursor) (expected : String) (value? : Token → Option α) :
    ParseResult α :=
  match c.rest with
  | [] => .error (.unexpectedEnd expected c.pos [])
  | t :: rest =>
    match value? t with
    | some a => .ok (a, ⟨c.pos + 1, rest⟩)
    | none => .error (.unexpectedToken expected t c.pos [])

/-- Reads the given token. -/
def expect (c : Cursor) (t : Token) : ParseResult Token :=
  c.take t.text fun found => if found = t then some found else none

end Cursor

/-! ### The rule -/

/-- **The rule.** Reads a formula, with the given number of levels left to nest. The limit is only
needed for the message. -/
def readFormula (limit : Nat) : Nat → Cursor → ParseResult Formula
  | 0, c => .error (.tooDeep limit c.pos)
  | room + 1, c =>
    match c.rest with
    | [] => .error (.unexpectedEnd "formula" c.pos [])
    | .operator (.unary op) :: rest =>
      ((readFormula limit room ⟨c.pos + 1, rest⟩).mapValue (.unary op)).within "unary formula"
    | .var name :: .operator (.binary op) :: rest =>
      ((readFormula limit room ⟨c.pos + 2, rest⟩).within "right operand").mapValue
        (.binary op (.var name))
    | .var name :: rest => .ok (.var name, ⟨c.pos + 1, rest⟩)
    | .bracket .opening :: rest =>
      ((readFormula limit room ⟨c.pos + 1, rest⟩).andThen fun φ c =>
        (c.expect (.bracket .closing)).mapValue fun _ => φ).within "parenthesized formula"
    | t :: _ => .error (.unexpectedToken "variable, '~', '[]', '<>' or '('" t c.pos [])

end TrustLogic
