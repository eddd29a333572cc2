import TrustLogic.CommandLine.Arguments
import TrustLogic.Documents
import TrustLogic.Formula.Printer
import TrustLogic.Formula.OfText

/-!
# Runs of the command line

A run reads the settings, then the frame or the model, then the formula, and evaluates at last; the
first fault ends it.

* `perform` – what an invocation prints, given the content of the files.
* `Outcome` – the exit code and the output of a run.
* `run` – the outcome of a list of arguments.
-/

namespace TrustLogic.CommandLine

/-- A listing of symbols, one to a line. -/
def listing (ts : List Located) : String :=
  String.join (ts.map fun t => t.token.text ++ " (" ++ t.span.text ++ ")\n")

/-- A formula's structure, its notation and its depth. -/
def description (φ : Formula) : String :=
  φ.tree ++ "\n" ++ φ.render ++ "\n" ++ s!"depth: {φ.depth}\n"

/-- What a task prints. -/
def performTask (read : String → FileContent) (settings : Settings) (formula : String) :
    Task → Except Error String
  | .tokens => ((tokenize formula).mapError .lex).map listing
  | .parse => (Formula.ofText settings.maxDepth formula).map description
  | .fuzzy frame agent => do
    let f ← Trust.Frame.ofFile .standard frame (read frame)
    let φ ← Formula.ofText settings.maxDepth formula
    let x ← (f.evaluate settings.maxDepth φ agent).mapError .degree
    return x.text ++ "\n"
  | .kripke model world => do
    let d ← Kripke.Draft.ofFile model (read model)
    let m ← d.build.mapError .model
    let φ ← Formula.ofText settings.maxDepth formula
    let a ← (m.evaluate settings.maxDepth φ world).mapError .evidence
    return a.text ++ "\n"

/-- What an invocation prints, given the content of the files. -/
def perform (read : String → FileContent) (i : Invocation) : Except Error String := do
  let settings ← match i.config with
    | some file => Settings.ofFile file (read file)
    | none => pure {}
  performTask read settings i.formula i.task

/-- The outcome of a run. -/
structure Outcome where
  /-- The exit code: 0 for success, 1 for a fault, 2 for arguments that are out of place. -/
  code : Nat
  /-- What is printed. -/
  output : String
  /-- The line that reports a fault. -/
  report : Option String
deriving DecidableEq, Repr

/-- The outcome of a list of arguments, given the content of the files. -/
def run (read : String → FileContent) (args : List String) : Outcome :=
  match Invocation.ofArguments args with
  | .error .misuse => ⟨2, "", none⟩
  | .error .information => ⟨0, "", none⟩
  | .ok i =>
    match perform read i with
    | .ok output => ⟨0, output, none⟩
    | .error e => ⟨1, "", some ("Error: " ++ e.message)⟩

end TrustLogic.CommandLine
