import TrustLogic.Text.Digits

/-!
# Arguments of the command line

A call names a verb, with options before and after it and a formula. An option is given by its long
name after two dashes or by its letter after one; letters can be joined, and the value of an option
follows it as the next argument, after an equals sign, or directly after the letter. After a
lone `--` no argument is an option any more.

The arguments are read from left to right, and the first one that is out of place ends the reading,
as does a request for help.

* `Verb`, `Key` – the verbs and the options.
* `Invocation` – what a call asks for.
* `Reading.step` – what is made of one argument.
* `Invocation.ofArguments` – what a list of arguments asks for.
-/

namespace TrustLogic.CommandLine

/-- What can be done with a formula. -/
inductive Verb
  /-- List its symbols. -/
  | tokens
  /-- Show its structure. -/
  | parse
  /-- Evaluate it at an agent of a frame of trust. -/
  | fuzzy
  /-- Evaluate it at a world of a Kripke model. -/
  | kripke
deriving DecidableEq, Repr

/-- The verb of the given name. -/
def Verb.ofName? : String → Option Verb
  | "tokens" => some tokens
  | "parse" => some parse
  | "fuzzy" => some fuzzy
  | "kripke" => some kripke
  | _ => none

/-- The options. -/
inductive Key
  | config
  | verbose
  | frame
  | agent
  | model
  | world
  | help
  | version
deriving DecidableEq, Repr

namespace Key

/-- The long name of an option. -/
def name : Key → String
  | config => "config"
  | verbose => "verbose"
  | frame => "frame"
  | agent => "agent"
  | model => "model"
  | world => "world"
  | help => "help"
  | version => "version"

/-- The letter of an option. -/
def letter : Key → Char
  | config => 'c'
  | verbose => 'v'
  | frame => 'f'
  | agent => 'a'
  | model => 'm'
  | world => 'w'
  | help => 'h'
  | version => 'V'

/-- Whether an option has a value. -/
def takesValue : Key → Bool
  | verbose => false
  | help => false
  | version => false
  | _ => true

end Key

/-- The options before the verb. -/
def leadingKeys : List Key := [.config, .verbose, .help, .version]

/-- The options after a verb. -/
def Verb.keys : Verb → List Key
  | tokens => [.help]
  | parse => [.help]
  | fuzzy => [.frame, .agent, .help]
  | kripke => [.model, .world, .help]

/-- A natural number below 2⁶⁴ in decimal digits, with or without a plus sign. -/
def natural? (s : String) : Option Nat :=
  let digits := match s.toList with
    | '+' :: rest => rest
    | cs => cs
  if digits.isEmpty || !digits.all Char.isDigit then none
  else if natOfDigits digits < 0x10000000000000000 then some (natOfDigits digits) else none

/-- Whether a value is one that an option can have: the name of a file is not empty, and a world is
a number. -/
def Key.accepts : Key → String → Bool
  | config, v => v ≠ ""
  | frame, v => v ≠ ""
  | model, v => v ≠ ""
  | world, v => (natural? v).isSome
  | _, _ => true

/-- Why the reading of arguments ends early. -/
inductive Stop
  /-- An argument is out of place or missing. -/
  | misuse
  /-- Help or the version is asked for. -/
  | information
deriving DecidableEq, Repr

/-! ### One argument after the other -/

/-- What has been read so far. -/
structure Reading where
  /-- The options, with their values. -/
  options : List (Key × String) := []
  /-- The option whose value must come next. -/
  waiting : Option Key := none
  /-- Whether no argument is an option any more. -/
  plain : Bool := false
  /-- The formula. -/
  formula : Option String := none
deriving DecidableEq, Repr

namespace Reading

/-- The value of an option that has been given. -/
def value? (r : Reading) (k : Key) : Option String := r.options.lookup k

/-- Takes an option with its value. No option is given twice. -/
def add (r : Reading) (k : Key) (v : String) : Except Stop Reading :=
  if k = .help ∨ k = .version then .error .information
  else if (r.value? k).isSome || !k.accepts v then .error .misuse
  else .ok { r with options := (k, v) :: r.options, waiting := none }

/-- Takes joined letters. -/
def addLetters (keys : List Key) : Reading → List Char → Except Stop Reading
  | r, [] => .ok r
  | r, c :: cs =>
    match keys.find? fun k => k.letter = c with
    | none => .error .misuse
    | some k =>
      if k.takesValue then
        match cs with
        | [] => .ok { r with waiting := some k }
        | '=' :: v => r.add k (String.ofList v)
        | v => r.add k (String.ofList v)
      else
        match r.add k "" with
        | .error e => .error e
        | .ok r => addLetters keys r cs

/-- Takes an option by its long name, which an equals sign and a value may follow. -/
def addNamed (keys : List Key) (r : Reading) (cs : List Char) : Except Stop Reading :=
  let name := String.ofList (cs.takeWhile (· ≠ '='))
  match keys.find? fun k => k.name = name, cs.dropWhile (· ≠ '=') with
  | none, _ => .error .misuse
  | some k, [] => if k.takesValue then .ok { r with waiting := some k } else r.add k ""
  | some k, _ :: v => if k.takesValue then r.add k (String.ofList v) else .error .misuse

/-- Takes an argument that is no option. -/
def addPlain (r : Reading) (arg : String) : Except Stop Reading :=
  match r.formula with
  | none => .ok { r with formula := some arg }
  | some _ => .error .misuse

/-- What is made of one argument, among options with the given keys. The value of an option must
not look like an option itself. -/
def step (keys : List Key) (r : Reading) (arg : String) : Except Stop Reading :=
  match r.waiting, r.plain, arg.toList with
  | some _, _, '-' :: _ :: _ => .error .misuse
  | some k, _, _ => r.add k arg
  | none, true, _ => r.addPlain arg
  | none, false, ['-', '-'] => .ok { r with plain := true }
  | none, false, '-' :: '-' :: cs => addNamed keys r cs
  | none, false, '-' :: c :: cs => addLetters keys r (c :: cs)
  | none, false, _ => r.addPlain arg

/-- What is made of some arguments. -/
def steps (keys : List Key) (r : Reading) : List String → Except Stop Reading
  | [] => if r.waiting.isSome then .error .misuse else .ok r
  | arg :: args =>
    match r.step keys arg with
    | .error e => .error e
    | .ok r => r.steps keys args

end Reading

/-! ### What is asked for -/

/-- What to do with a formula. -/
inductive Task
  | tokens
  | parse
  | fuzzy (frame agent : String)
  | kripke (model : String) (world : Nat)
deriving DecidableEq, Repr

/-- What a call asks for. -/
structure Invocation where
  /-- The file with the settings. -/
  config : Option String
  /-- What to do with the formula. -/
  task : Task
  /-- The formula. -/
  formula : String
deriving DecidableEq, Repr

namespace Invocation

/-- The task of a verb with its options. -/
def task? (verb : Verb) (r : Reading) : Option Task :=
  match verb with
  | .tokens => some .tokens
  | .parse => some .parse
  | .fuzzy =>
    (r.value? .frame).bind fun frame => (r.value? .agent).map fun agent => .fuzzy frame agent
  | .kripke =>
    (r.value? .model).map fun model =>
      .kripke model (((r.value? .world).bind natural?).getD 0)

/-- What is asked for by a verb and the arguments after it. -/
def ofVerb (config : Option String) (verb : Verb) (args : List String) :
    Except Stop Invocation :=
  match ({} : Reading).steps verb.keys args with
  | .error e => .error e
  | .ok r =>
    match task? verb r, r.formula with
    | some task, some formula => .ok ⟨config, task, formula⟩
    | _, _ => .error .misuse

/-- What is made of a request for help with a verb. -/
def help : List String → Stop
  | [] => .information
  | [verb] => if verb = "help" || (Verb.ofName? verb).isSome then .information else .misuse
  | _ => .misuse

/-- What is asked for by the arguments that remain, where the verb has not been met. -/
def ofArgumentsFrom (r : Reading) : List String → Except Stop Invocation
  | [] => .error .misuse
  | arg :: args =>
    match r.step leadingKeys arg with
    | .error e => .error e
    | .ok r' =>
      match r'.formula with
      | none => ofArgumentsFrom r' args
      | some name =>
        if r'.plain then .error .misuse
        else if name = "help" then .error (help args)
        else
          match Verb.ofName? name with
          | none => .error .misuse
          | some verb => ofVerb (r'.value? .config) verb args

/-- What a list of arguments asks for. -/
def ofArguments (args : List String) : Except Stop Invocation :=
  ofArgumentsFrom {} args

/-- The files that are read for a call. -/
def files (i : Invocation) : List String :=
  let named := match i.task with
    | .fuzzy frame _ => [frame]
    | .kripke model _ => [model]
    | _ => []
  i.config.toList ++ named

end Invocation

end TrustLogic.CommandLine
