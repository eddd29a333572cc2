import TrustLogic.Json.Basic
import TrustLogic.Table

/-!
# Data from JSON values

Readers that take a JSON value for a piece of data, or refuse it.

* `Json.bool?`, `Json.natural?`, `Json.integer?`, `Json.items?`, `Json.optional?` – simple values.
  Integers are numbers written without a point and an exponent, within the range of 64 bits; a zero
  with a minus sign is none.
* `Json.table?` – objects whose fields are free, where of repeated names the last
  one counts.
* `Json.member?` – a field of an object whose fields are known, where a repeated name is refused;
  `Json.place?` – the same for an object given as a list of its values.
* `Json.reader` – what a document holds, according to a reader of values.
-/

namespace TrustLogic.Json

/-! ### Simple values -/

/-- The integer that a number is written as. -/
def Numeral.integer? (n : Numeral) : Option Int :=
  if n.fraction.isEmpty && n.exponent.isNone then
    if n.negative then
      if natOfDigits n.whole = 0 then none else some (-(natOfDigits n.whole : Int))
    else some (natOfDigits n.whole)
  else none

/-- A truth value. -/
def bool? : Json → Option Bool
  | bool b => some b
  | _ => none

/-- A natural number below 2⁶⁴. -/
def natural? : Json → Option Nat
  | number n =>
    n.integer?.bind fun i => if 0 ≤ i ∧ i < 0x10000000000000000 then some i.toNat else none
  | _ => none

/-- An integer from -2⁶³ to 2⁶³ - 1. -/
def integer? : Json → Option Int
  | number n =>
    n.integer?.bind fun i =>
      if -0x8000000000000000 ≤ i ∧ i < 0x8000000000000000 then some i else none
  | _ => none

/-- A list of values that `read` accepts. -/
def items? {α : Type} (read : Json → Option α) : Json → Option (List α)
  | array items => items.mapM read
  | _ => none

/-- Nothing, or a value that `read` accepts. -/
def optional? {α : Type} (read : Json → Option α) : Json → Option (Option α)
  | null => some none
  | v => (read v).map some

/-! ### Objects -/

/-- The fields of an object, all of which must have a text for a name. -/
def fields? : Json → Option (List (String × Json))
  | object fields => fields.mapM fun field => field.1.map fun name => (name, field.2)
  | _ => none

/-- Values that `read` accepts, entered into a table one after the other. -/
def tableOfFields? {α : Type} (read : Json → Option α) (fields : List (String × Json)) :
    Option (Table α) :=
  (fields.mapM fun field => (read field.2).map fun a => (field.1, a)).map fun entries =>
    entries.foldl (fun t entry => t.insert entry.1 entry.2) ∅

/-- A table of values that `read` accepts. -/
def table? {α : Type} (read : Json → Option α) (v : Json) : Option (Table α) :=
  v.fields?.bind (tableOfFields? read)

/-- The value of a field that is known by name, or `default` where the field is missing. -/
def member? {α : Type} (fields : List (String × Json)) (name : String)
    (read : Json → Option α) (default : Option α) : Option α :=
  match fields.filter fun field => field.1 = name with
  | [] => default
  | [field] => read field.2
  | _ => none

/-- The value at a known place of a list, or `default` where the list is too short. -/
def place? {α : Type} (items : List Json) (i : Nat) (read : Json → Option α)
    (default : Option α) : Option α :=
  match items[i]? with
  | some v => read v
  | none => default

/-! ### Documents -/

/-- The reason why a document is refused. It does not say where the document is at fault. -/
def refusal : String := "this is not the document that is wanted"

/-- What a document holds, according to `read`. -/
def reader {α : Type} (read : Json → Option α) (gs : Glyphs) : Except String α :=
  match (ofGlyphs? gs).bind read with
  | some a => .ok a
  | none => .error refusal

end TrustLogic.Json
