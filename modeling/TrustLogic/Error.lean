import TrustLogic.Kripke.Semantics
import TrustLogic.Parser.Basic
import TrustLogic.Token.Lexer
import TrustLogic.Trust.Semantics

/-!
# Faults

Every part of the library has faults of its own. Here they are put into one type, in which whoever
reads a formula, builds a model or evaluates reports what went wrong.

* `DocumentError` – what can be wrong with a document.
* `Error` – the faults of all parts, with `Error.message` and, for a fault in a formula's text,
  `Error.span?`.
-/

namespace TrustLogic

/-- What can be wrong with a document. The reason is that of the reader, or of the system where a
file cannot be opened or read. -/
inductive DocumentError
  /-- The text is not the document that is wanted. -/
  | badText (reason : String)
  /-- There is no such file. -/
  | noFile (path reason : String)
  /-- The content of the file is not the document that is wanted. -/
  | badFile (path reason : String)
deriving DecidableEq, Repr

/-- The fault as a message. -/
def DocumentError.message : DocumentError → String
  | badText reason => s!"Failed to parse JSON: {reason}"
  | noFile path reason => s!"Failed to open file {path}: {reason}"
  | badFile path reason => s!"Failed to parse file {path}: {reason}"

/-- The faults of all parts. -/
inductive Error
  /-- A fault of the symbols of a formula's text. -/
  | lex (e : LexError)
  /-- A fault of the order of the symbols, and the stretch of the text where it was found. -/
  | parse (e : ParseError) (span : Span)
  /-- A fault of a model's draft. -/
  | model (e : Kripke.ModelError)
  /-- A fault of evaluating in a Kripke model. -/
  | evidence (e : Kripke.EvalError)
  /-- A fault of evaluating in a frame of trust. -/
  | degree (e : Trust.EvalError)
  /-- A fault of a document. -/
  | document (e : DocumentError)
deriving DecidableEq, Repr

namespace Error

/-- The fault as a message. -/
def message : Error → String
  | lex e => "Tokenize error: " ++ e.message
  | parse e s => "Parse error: " ++ e.message ++ " at " ++ s.text
  | model e => "Model error: " ++ e.message
  | evidence e => "Eval error: " ++ e.message
  | degree e => "Eval error: " ++ e.message
  | document e => "Config error: " ++ e.message

/-- The stretch of a formula's text that is at fault. -/
def span? : Error → Option Span
  | lex e => some e.span
  | parse _ s => some s
  | _ => none

end Error

end TrustLogic
