import TrustLogic.Degree.Numeral
import TrustLogic.Json.Decode
import TrustLogic.Trust.Document

/-!
# The codec of JSON documents

Contents are written as JSON documents without any white space. How numbers are read is left open,
as there is more than one way to round them.

* `documentName`, `documentObject` – how names and objects are written.
* `Content.chars`, `Content.ofJson?` – a content as a document, and the content of a JSON value.
* `Codec.json` – the codec, for a given reader of numbers.
* `Codec.standard` – the codec that the command uses.
-/

namespace TrustLogic.Trust

/-! ### Writing -/

/-- The letter that stands for a character behind a backslash. -/
def documentEscape? : Char → Option Char
  | '"' => some '"'
  | '\\' => some '\\'
  | '\x08' => some 'b'
  | '\t' => some 't'
  | '\n' => some 'n'
  | '\x0c' => some 'f'
  | '\r' => some 'r'
  | _ => none

/-- How a character of a name is written in a document. Only the quote, the backslash and the
control characters cannot stand as they are. -/
def documentChar (c : Char) : List Char :=
  match documentEscape? c with
  | some letter => ['\\', letter]
  | none =>
    if c.toNat < 0x20 then
      ['\\', 'u', '0', '0', Nat.digitChar (c.toNat / 16), Nat.digitChar (c.toNat % 16)]
    else [c]

/-- A name as it is written in a document. -/
def documentName (name : String) : List Char :=
  '"' :: (name.toList.flatMap documentChar ++ ['"'])

/-- A degree as it is written in a document. -/
def documentDegree (x : Degree) : List Char :=
  match x.numeral? with
  | some n => n.chars
  | none => ['n', 'u', 'l', 'l']

/-- An object with the given fields, whose values are written already. -/
def documentObject (fields : List (String × List Char)) : List Char :=
  let written := fields.map fun field => documentName field.1 ++ ':' :: field.2
  '\x7b' :: ((written.intersperse [',']).flatten ++ ['\x7d'])

mutual

/-- A content as a document. -/
def Content.chars : Content → List Char
  | .null => ['n', 'u', 'l', 'l']
  | .number x => documentDegree x
  | .object fields => documentObject (charsOfFields fields)

/-- The values of some fields, each as a document. -/
def charsOfFields : List (String × Content) → List (String × List Char)
  | [] => []
  | (name, c) :: fields => (name, c.chars) :: charsOfFields fields

end

/-! ### Reading -/

section

variable (number? : Json.Numeral → Option Degree)

mutual

/-- The content of a JSON value. -/
def Content.ofJson? : Json → Option Content
  | .null => some .null
  | .number n => (number? n).map .number
  | .object fields => (fieldsOfJson? fields).map .object
  | _ => none

/-- The contents of some fields, all of which must have a text for a name. -/
def fieldsOfJson? : List (Option String × Json) → Option (List (String × Content))
  | [] => some []
  | (some name, v) :: fields =>
    (Content.ofJson? v).bind fun c => (fieldsOfJson? fields).map ((name, c) :: ·)
  | (none, _) :: _ => none

end

end

/-! ### The codec -/

namespace Codec

/-- The codec of JSON documents, where numbers are read by `number?`. -/
def json (number? : Json.Numeral → Option Degree) : Codec where
  write c := String.ofList c.chars
  read := Json.reader (Content.ofJson? number?)
  number
    | .number x => .ok x
    | _ => .error Json.refusal
  fields
    | .object fields => .ok fields
    | _ => .error Json.refusal
  split name fields :=
    if (fields.filter fun field => field.1 = name).length ≤ 1 then
      .ok ((fields.find? fun field => field.1 = name).map Prod.snd,
        fields.filter fun field => field.1 ≠ name)
    else .error Json.refusal

/-- The codec that the command uses. Its reader of numbers rounds more than once, so that a number
may come back as a close neighbour. -/
def standard : Codec := json Degree.ofNumeral?

end Codec

end TrustLogic.Trust
