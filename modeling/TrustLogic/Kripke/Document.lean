import TrustLogic.Json.Decode
import TrustLogic.Kripke.Model

/-!
# Drafts of models as documents

A draft is written as an object with the fields `worlds_size`, `relation`, `valuation1`,
`valuation2` and `self_relation`, of which only the first is required; other fields do not matter.
It can also be written as the list of these values in this order.

* `Draft.ofJson?` – reads a draft.
-/

namespace TrustLogic.Kripke.Draft

/-- A relation: a list of lists of integers, or nothing. -/
def relationOfJson? : Json → Option (Option (List (List Int))) :=
  Json.optional? (Json.items? (Json.items? Json.integer?))

/-- The entries of the variables: an object of lists of integers, or nothing. -/
def tableOfJson? : Json → Option (Option (Table (List Int))) :=
  Json.optional? (Json.table? (Json.items? Json.integer?))

/-- A draft from the readers of its five fields, each of which says what is written there or what
stands for it where nothing is written. -/
def ofFields? (worlds : Option Nat) (relation : Option (Option (List (List Int))))
    (pro con : Option (Option (Table (List Int)))) (reflexive : Option Bool) : Option Draft :=
  worlds.bind fun worlds => relation.bind fun relation => pro.bind fun pro => con.bind fun con =>
    reflexive.map fun reflexive => ⟨worlds, relation, pro, con, reflexive⟩

/-- Reads a draft from an object, or from a list of the values of its fields. -/
def ofJson? : Json → Option Draft
  | .array items =>
    if items.length ≤ 5 then
      ofFields? (Json.place? items 0 Json.natural? none)
        (Json.place? items 1 relationOfJson? (some none))
        (Json.place? items 2 tableOfJson? (some none))
        (Json.place? items 3 tableOfJson? (some none))
        (Json.place? items 4 Json.bool? (some false))
    else none
  | v =>
    v.fields?.bind fun fields =>
      ofFields? (Json.member? fields "worlds_size" Json.natural? none)
        (Json.member? fields "relation" relationOfJson? (some none))
        (Json.member? fields "valuation1" tableOfJson? (some none))
        (Json.member? fields "valuation2" tableOfJson? (some none))
        (Json.member? fields "self_relation" Json.bool? (some false))

end TrustLogic.Kripke.Draft
