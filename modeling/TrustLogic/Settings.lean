import TrustLogic.Json.Decode

/-!
# Settings

What can be set is how deep formulas may nest, for reading as well as for evaluating them.

* `Settings` – the settings, and `Settings.ofJson?`, which reads them.
-/

namespace TrustLogic

/-- The settings. -/
structure Settings where
  /-- The number of levels that a formula may have. -/
  maxDepth : Nat := 512
deriving DecidableEq, Repr

namespace Settings

/-- Reads settings from an object, or from a list of the values of its fields. -/
def ofJson? : Json → Option Settings
  | .array items =>
    if items.length ≤ 1 then
      (Json.place? items 0 Json.natural? (some ({} : Settings).maxDepth)).map Settings.mk
    else none
  | v =>
    v.fields?.bind fun fields =>
      (Json.member? fields "max_formula_depth" Json.natural? (some ({} : Settings).maxDepth)).map
        Settings.mk

end Settings

end TrustLogic
