import TrustLogic.Parser.Basic

/-!
# Parsers from smaller parsers

The reading of formulas is one of a family of parsers that are put together from smaller ones. A
parser is a value that says how it was put together, so that laws about all of them can be proved
by induction.

* `Parser` – the parsers, by the type of value they read.
* `Parser.run` – what a parser does at a cursor; `Parser.runAt` – at a position in a list of tokens.
* `Parser.wholeFormula` – a formula with the end of the text after it.
-/

namespace TrustLogic

/-- A parser for values of a given type. -/
inductive Parser : Type → Type 1
  /-- The given token. -/
  | token (t : Token) : Parser Token
  /-- One token that has a value; `expected` describes the tokens that have one. -/
  | satisfy {α : Type} (expected : String) (value? : Token → Option α) : Parser α
  /-- The same with another value. -/
  | map {α β : Type} (f : α → β) (p : Parser α) : Parser β
  /-- The same without its value. -/
  | ignore {α : Type} (p : Parser α) : Parser Unit
  /-- The same, or nothing where it does not succeed. -/
  | optional {α : Type} (p : Parser α) : Parser (Option α)
  /-- One after the other. -/
  | pair {α β : Type} (p : Parser α) (q : Parser β) : Parser (α × β)
  /-- One between two whose values do not matter. -/
  | between {α : Type} (left : Parser Unit) (p : Parser α) (right : Parser Unit) : Parser α
  /-- The same, under a name that the trails of its faults mention. -/
  | named {α : Type} (label : String) (p : Parser α) : Parser α
  /-- A formula that nests no deeper than the limit. -/
  | formula (limit : Nat) : Parser Formula

namespace Parser

/-- What a parser does at a cursor. -/
def run : {α : Type} → Parser α → Cursor → ParseResult α
  | _, token t, c => c.expect t
  | _, satisfy expected value?, c => c.take expected value?
  | _, map f p, c => (p.run c).mapValue f
  | _, ignore p, c => (p.run c).mapValue fun _ => ()
  | _, optional p, c =>
    match p.run c with
    | .ok (a, c') => .ok (some a, c')
    | .error _ => .ok (none, c)
  | _, pair p q, c => (p.run c).andThen fun a c => (q.run c).mapValue fun b => (a, b)
  | _, between left p right, c =>
    (left.run c).andThen fun _ c => (p.run c).andThen fun a c => (right.run c).mapValue fun _ => a
  | _, named label p, c => (p.run c).within label
  | _, formula limit, c => readFormula limit limit c

/-- What a parser does at a position in a list of tokens. -/
def runAt {α : Type} (p : Parser α) (tokens : List Token) (pos : Nat) : ParseResult α :=
  p.run (Cursor.ofTokens tokens pos)

/-- A formula with the end of the text after it. -/
def wholeFormula (limit : Nat) : Parser Formula :=
  named "formula" (map Prod.fst (pair (formula limit) (token .eof)))

end Parser

end TrustLogic
