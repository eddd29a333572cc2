import TrustLogic.Json.Lexeme

/-!
# JSON values

A JSON document denotes a value. The value is built from the lexemes by a machine that keeps the
containers which are still open on a stack, so that a document may nest as deep as it likes.

* `Json` – the values. The fields of an object are kept as they are written, with repetitions.
* `Builder` – the states of the machine, and `Builder.step?`, what it does on a lexeme.
* `Json.ofGlyphs?` – the value of a document, if it is well written.
-/

namespace TrustLogic

/-- A JSON value. A string, also one that names a field, may denote no text. -/
inductive Json
  | null
  | bool (b : Bool)
  | number (n : Json.Numeral)
  | string (text : Option String)
  | array (items : List Json)
  | object (fields : List (Option String × Json))

namespace Json

/-- A container that is still open, with what has been read of it, the latest first. -/
inductive Pending
  | array (items : List Json)
  /-- An object and the name of the field whose value is being read. -/
  | object (fields : List (Option String × Json)) (name : Option String)

/-- What the machine is waiting for. -/
inductive Builder
  /-- A value. -/
  | value (stack : List Pending)
  /-- A value, or the end of an array that has just begun. -/
  | firstItem (stack : List Pending)
  /-- The name of a field, or, where that is allowed, the end of the object. -/
  | field (fields : List (Option String × Json)) (mayEnd : Bool) (stack : List Pending)
  /-- The colon after the name of a field. -/
  | colon (fields : List (Option String × Json)) (name : Option String) (stack : List Pending)
  /-- What comes after a value. -/
  | done (v : Json) (stack : List Pending)

namespace Builder

/-- What the machine does on a lexeme where it waits for a value. -/
def valueStep? (stack : List Pending) : Lexeme → Option Builder
  | .null => some (done .null stack)
  | .bool b => some (done (.bool b) stack)
  | .number n => some (done (.number n) stack)
  | .string text => some (done (.string text) stack)
  | .openBracket => some (firstItem stack)
  | .openBrace => some (field [] true stack)
  | _ => none

/-- What the machine does on a lexeme. -/
def step? : Builder → Lexeme → Option Builder
  | value stack, l => valueStep? stack l
  | firstItem stack, .closeBracket => some (done (.array []) stack)
  | firstItem stack, l => valueStep? (.array [] :: stack) l
  | field fields _ stack, .string name => some (colon fields name stack)
  | field fields true stack, .closeBrace => some (done (.object fields.reverse) stack)
  | colon fields name stack, .colon => some (value (.object fields name :: stack))
  | done v (.array items :: stack), .comma => some (value (.array (v :: items) :: stack))
  | done v (.array items :: stack), .closeBracket =>
    some (done (.array (v :: items).reverse) stack)
  | done v (.object fields name :: stack), .comma =>
    some (field ((name, v) :: fields) false stack)
  | done v (.object fields name :: stack), .closeBrace =>
    some (done (.object ((name, v) :: fields).reverse) stack)
  | _, _ => none

/-- The state after some lexemes. -/
def run? (s : Builder) : List Lexeme → Option Builder
  | [] => some s
  | l :: ls => (s.step? l).bind fun s' => s'.run? ls

/-- The value that has been read, once no container is open. -/
def result? : Builder → Option Json
  | done v [] => some v
  | _ => none

end Builder

/-- The value that some lexemes denote. -/
def ofLexemes? (ls : List Lexeme) : Option Json :=
  ((Builder.value []).run? ls).bind Builder.result?

/-- The value of a document. -/
def ofGlyphs? (gs : Glyphs) : Option Json :=
  (lexemes? gs).bind ofLexemes?

end Json

end TrustLogic
